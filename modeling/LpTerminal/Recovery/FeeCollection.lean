import LpTerminal.Lib.Trace
import LpTerminal.Recovery.WalletLaw

/-!
The fee collection of a position: collect, retain the income tax, convert, and infer the strategy's
allocations from the wallet.
-/

namespace LpTerminal.FeeCollection

open Durable Fallible FeeTax Rebalance Receipts Store SwapJob SwapLegs Trace WalletLaw

/-- A job on one position; a univ4 collection settles in one delta that names no amounts. -/
structure PositionJob extends Job where
  univ4 : Bool
  positionManager : Address
  tokenId : Nat

structure CollectReply where
  collect : Send
  collectDrift : Address → ℤ
  taxQuotes : QuoteFn
  taxReplies : List LegReply
  turnover : Except ErrorCode Unit
  strategyReply : LegReply
  cleanup : Except ErrorCode (List Send)
  position : Except ErrorCode Unit
  otherAllocations : Address → ℤ

structure FeeCommit where
  allocation0 : ℤ
  allocation1 : ℤ
  principal0 : ℤ
  principal1 : ℤ
  heldFee0 : ℤ
  heldFee1 : ℤ
  heldProfit0 : ℤ
  heldProfit1 : ℤ
  taxUsdgActual : ℤ
  deriving DecidableEq, Repr

section
variable (market : Market) (job : PositionJob) (chain : ChainFacts job.owner) (context : PrecheckContext)

def collectedFromReceipt (state : JobState) (receipt : Receipt) (token : Address) : ℤ :=
  (receiptV4TokenFlow receipt token job.owner).getD
    (receivedByWallet (context.baseline token) (state.wallet token) receipt token)

def recoveredCollect (state : JobState) (receipt : Receipt) : Except ErrorCode (ℤ × ℤ) :=
  if job.univ4 then do
    let collected0 := collectedFromReceipt job context state receipt job.pair.token0
    let collected1 := collectedFromReceipt job context state receipt job.pair.token1
    demand (0 ≤ collected0 ∧ 0 ≤ collected1) .unsupportedToken
    return (collected0, collected1)
  else
    let flows := receiptLiquidityFlows receipt job.positionManager job.tokenId
    .ok (flows.collected0, flows.collected1)

def freshCollect (before after : JobState) (receipt : Receipt) : Except ErrorCode (ℤ × ℤ) :=
  let token0 := job.pair.token0
  let token1 := job.pair.token1
  if job.univ4 then do
    let collected0 := receivedByWallet (before.wallet token0) (after.wallet token0) receipt token0
    let collected1 := receivedByWallet (before.wallet token1) (after.wallet token1) receipt token1
    demand (0 ≤ collected0 ∧ 0 ≤ collected1) .unsupportedToken
    return (collected0, collected1)
  else do
    let flows := receiptLiquidityFlows receipt job.positionManager job.tokenId
    demand (after.wallet token0 - before.wallet token0 = flows.collected0 ∧
      after.wallet token1 - before.wallet token1 = flows.collected1) .unsupportedToken
    return (flows.collected0, flows.collected1)

def collectFees (answer : CollectReply) : Durable ErrorCode JobState (ℤ × ℤ) := do
  let before ← read
  match confirmedAt job.toJob chain before 2 with
  | some receipt => reply (recoveredCollect job context before receipt)
  | none => do
    let receipt ← trackedSend job.toJob chain 2 (nextTransactionIndex before.journal job.id 2) answer.collect
    driftWallet answer.collectDrift
    let after ← read
    reply (freshCollect job before after receipt)

def strategyLeg (riskAmount : ℤ) : SwapLeg where
  intent :=
    { purpose := .strategy, tokenIn := job.pair.riskToken, tokenOut := job.pair.quoteToken, amountIn := riskAmount
      quotedOut := 0, principalIn := 0, feeIn := riskAmount }
  reuses record :=
    record.purpose ≠ .feeTax && record.tokenIn = job.pair.riskToken && record.amountIn = riskAmount
  checks := plannedIntent
  gasAdjusted := true

def riskAfterTax (tax : FeeTaxPlan) : ℤ :=
  if job.pair.riskToken = job.pair.token0 then tax.fee0AfterTax else tax.fee1AfterTax

def convertFees (tax : FeeTaxPlan) (nextSwapTx : Nat) (answer : CollectReply) :
    Durable ErrorCode JobState (Option LegResult) :=
  let riskAmount := riskAfterTax job tax
  if job.handling = .convertToQuote ∧ 0 < riskAmount then do
    let result ← runLeg job.toJob chain (strategyLeg job riskAmount) nextSwapTx answer.strategyReply
    allowances job.toJob chain answer.cleanup
    return some result
  else return none

def feeSwaps (tax : FeeTaxPlan) (answer : CollectReply) : Durable ErrorCode JobState (List LegResult × Option LegResult) := do
  let state ← read
  let (taxResults, nextSwapTx) ← runTaxLegs job.toJob chain false (nextTransactionIndex state.journal job.id swapStep)
    tax.swaps answer.taxReplies
  reply answer.turnover
  let strategyResult ← convertFees job chain tax nextSwapTx answer
  return (taxResults, strategyResult)

/-- The allocation of one pair token: what the wallet holds of it beyond the baseline, and what it held before; the
retained tax is not the strategy's. -/
def allocationOf (balances : Address → ℤ) (taxUsdgActual : ℤ) (token : Address) : ℤ :=
  balances token - context.baseline token + context.prior token -
    (if token = market.settlementToken then taxUsdgActual else 0)

def principalOf (allocation : ℤ) (token : Address) : ℤ :=
  if job.handling = .reinvest then allocation - context.held token - context.profit token else context.principal token

def settleFees (allocation0 allocation1 balance0 balance1 taxUsdgActual : ℤ) (otherAllocations : Address → ℤ) :
    Except ErrorCode FeeCommit := do
  let token0 := job.pair.token0
  let token1 := job.pair.token1
  demand (0 ≤ allocation0 ∧ 0 ≤ allocation1) .allocationMismatch
  let principal0 := principalOf job context allocation0 token0
  let principal1 := principalOf job context allocation1 token1
  let heldProfit0 := context.profit token0
  let heldProfit1 := context.profit token1
  let heldFee0 := allocation0 - principal0 - heldProfit0
  let heldFee1 := allocation1 - principal1 - heldProfit1
  demand (0 ≤ principal0 ∧ 0 ≤ principal1 ∧ 0 ≤ heldFee0 ∧ 0 ≤ heldFee1 ∧ 0 ≤ heldProfit0 ∧ 0 ≤ heldProfit1)
    .allocationMismatch
  demand (WalletCovers (otherAllocations token0) balance0 allocation0 ∧
    WalletCovers (otherAllocations token1) balance1 allocation1) .allocationMismatch
  return { allocation0, allocation1, principal0, principal1, heldFee0, heldFee1, heldProfit0, heldProfit1, taxUsdgActual }

def commitFees (balances : Address → ℤ) (taxUsdgActual : ℤ) (otherAllocations : Address → ℤ) : Except ErrorCode FeeCommit :=
  settleFees job context (allocationOf market context balances taxUsdgActual job.pair.token0)
    (allocationOf market context balances taxUsdgActual job.pair.token1) (balances job.pair.token0)
    (balances job.pair.token1) taxUsdgActual otherAllocations

def retainedUsdg (tax : FeeTaxPlan) (results : List LegResult) : ℤ :=
  tax.retainedUsdg + (results.map LegResult.gained).sum

def finishFeeCollection (answer : CollectReply) : Durable ErrorCode JobState FeeCommit := do
  let (collected0, collected1) ← collectFees job chain context answer
  let tax ← ensureTax job.toJob market answer.taxQuotes collected0 collected1
  let (taxResults, _) ← feeSwaps job chain tax answer
  reply answer.position
  let final ← read
  reply (commitFees market job context final.wallet (retainedUsdg tax taxResults) answer.otherAllocations)

structure Attempt where
  landed : Hash → Bool
  answer : CollectReply

def attempt (state : JobState) (input : Attempt) : Except ErrorCode FeeCommit × JobState :=
  (finishFeeCollection market job chain context input.answer).run (resolveSlots job.toJob chain input.landed state)

def afterAttempt (state : JobState) (input : Attempt) : JobState :=
  (attempt market job chain context state input).2

def StillAttempt (_ : JobState) (input : Attempt) : Prop :=
  Still job.pair input.answer.collectDrift ∧ (∀ answer ∈ input.answer.taxReplies, Still job.pair answer.drift) ∧
    Still job.pair input.answer.strategyReply.drift

/-- What the strategy should hold of a token: its prior allocation, the amount collected, what the swaps spent and
gained, without the retained income. -/
def earned (state : JobState) (commit : FeeCommit) (token : Address) : ℤ :=
  context.prior token + flow chain (· = 2) state.mined token + flow chain (· = swapStep) state.mined token -
    (if token = market.settlementToken then commit.taxUsdgActual else 0)

def withoutGas (state : JobState) (token : Address) : ℤ :=
  state.wallet token + (if token = zeroAddress then gasPaid chain state.mined else 0)

def GasApart (state : JobState) : Prop :=
  (job.pair.token0 ≠ zeroAddress ∧ job.pair.token1 ≠ zeroAddress) ∨ gasPaid chain state.mined = 0

end

section
variable {market : Market} {job : PositionJob} {chain : ChainFacts job.owner} {context : PrecheckContext}
variable {I : JobState → Prop}

variable {answer : CollectReply}

theorem keeps_collectFees (stable : Stable job.toJob chain I)
    (still : Still job.pair answer.collectDrift) : Keeps I (collectFees job chain context answer) := by
  refine keeps_bind keeps_read fun before => ?_
  split
  · exact keeps_reply _
  · refine keeps_bind (keeps_trackedSend stable _ _ _) fun receipt => ?_
    exact keeps_bind (keeps_driftWallet stable still) fun _ => keeps_bind keeps_read fun after => keeps_reply _

theorem keeps_feeSwaps (stable : Stable job.toJob chain I) (tax : FeeTaxPlan)
    (stillTax : ∀ reply ∈ answer.taxReplies, Still job.pair reply.drift)
    (stillStrategy : Still job.pair answer.strategyReply.drift) : Keeps I (feeSwaps job chain tax answer) := by
  refine keeps_bind keeps_read fun state => keeps_bind (keeps_runTaxLegs stable _ _ _ _ stillTax) fun taxed => ?_
  refine keeps_bind (keeps_reply _) fun _ => keeps_bind ?_ fun _ => keeps_pure _
  dsimp only [convertFees]
  split
  · refine keeps_bind (keeps_runLeg stable _ _ stillStrategy) fun result => ?_
    exact keeps_bind (keeps_allowances stable _) fun _ => keeps_pure _
  · exact keeps_pure _

variable {state : JobState}

theorem keeps_finishFeeCollection (stable : Stable job.toJob chain I) {input : Attempt}
    (still : StillAttempt job state input) : Keeps I (finishFeeCollection market job chain context input.answer) := by
  obtain ⟨collect, tax, strategy⟩ := still
  refine keeps_bind (keeps_collectFees stable collect) fun collected => ?_
  refine keeps_bind (keeps_ensureTax stable _ _ _ _) fun plan => keeps_bind (keeps_feeSwaps stable plan tax strategy) fun _ => ?_
  exact keeps_bind (keeps_reply _) fun _ => keeps_bind keeps_read fun final => keeps_reply _

theorem afterAttempt_keeps (stable : Stable job.toJob chain I) {input : Attempt}
    (still : StillAttempt job state input) (before : I state) : I (afterAttempt market job chain context state input) :=
  left_keeps (keeps_finishFeeCollection stable still) (stable_resolveSlots stable input.landed state before)

theorem attempts_accounted {inputs : List Attempt} (fresh : state.mined = [])
    (baseline : ∀ token, token = job.pair.token0 ∨ token = job.pair.token1 → state.wallet token = context.baseline token)
    (still : Along (afterAttempt market job chain context) (StillAttempt job) state inputs) :
    Accounted chain job.pair context.baseline (run (afterAttempt market job chain context) state inputs) := by
  refine run_keeps (fun s input kept quiet => afterAttempt_keeps (accounted_stable _ _ _) quiet kept) ?_ still
  intro token pairToken
  rw [fresh, List.map_nil, List.sum_nil, add_zero]
  exact baseline token pairToken

variable {commit : FeeCommit}

theorem commitFees_ok {balances otherAllocations : Address → ℤ} {taxUsdgActual : ℤ}
    (committed : commitFees market job context balances taxUsdgActual otherAllocations = .ok commit) :
    commit.taxUsdgActual = taxUsdgActual ∧
      commit.allocation0 = allocationOf market context balances taxUsdgActual job.pair.token0 ∧
      commit.allocation1 = allocationOf market context balances taxUsdgActual job.pair.token1 := by
  unfold commitFees settleFees at committed
  iterate 3 obtain ⟨_, _, committed⟩ := bind_ok committed
  cases committed
  exact ⟨rfl, rfl, rfl⟩

theorem finishFeeCollection_commits {state final : JobState}
    (finished : (finishFeeCollection market job chain context answer).run state = (.ok commit, final)) :
    ∃ tax results, commitFees market job context final.wallet (retainedUsdg tax results) answer.otherAllocations = .ok commit := by
  unfold finishFeeCollection at finished
  obtain ⟨_, _, _, finished⟩ := bind_returns finished
  obtain ⟨tax, _, _, finished⟩ := bind_returns finished
  obtain ⟨results, _, _, finished⟩ := bind_returns finished
  obtain ⟨_, _, _, finished⟩ := bind_returns finished
  obtain ⟨_, _, read, finished⟩ := bind_returns finished
  cases read
  have settled := congrArg Prod.fst finished
  have left := congrArg Prod.snd finished
  cases left
  exact ⟨tax, results.1, settled⟩

theorem allocation_earned {token : Address}
    (accounted : Accounted chain job.pair context.baseline state)
    (pairToken : token = job.pair.token0 ∨ token = job.pair.token1)
    (others : ∀ entry ∈ state.mined, entry.1 ≠ 2 → entry.1 ≠ swapStep → chain.moved entry.2 token = 0) :
    allocationOf market context state.wallet commit.taxUsdgActual token =
      earned market job chain context state commit token -
        (if token = zeroAddress then gasPaid chain state.mined else 0) := by
  unfold allocationOf earned
  rw [accounted token pairToken, felt_sum, flow_split chain (by decide : 2 ≠ swapStep) others]
  omega

theorem commitFees_withoutGas (apart : GasApart job chain state) (taxUsdgActual : ℤ)
    (otherAllocations : Address → ℤ) :
    commitFees market job context (withoutGas job chain state) taxUsdgActual otherAllocations =
      commitFees market job context state.wallet taxUsdgActual otherAllocations := by
  have same : ∀ token, token = job.pair.token0 ∨ token = job.pair.token1 →
      withoutGas job chain state token = state.wallet token := by
    intro token pairToken
    unfold withoutGas
    rcases apart with ⟨erc20, erc20'⟩ | free
    · rw [if_neg (by rcases pairToken with rfl | rfl <;> assumption), add_zero]
    · rw [free, ite_self, add_zero]
  have first := same _ (Or.inl rfl)
  have second := same _ (Or.inr rfl)
  unfold commitFees allocationOf
  rw [first, second]

/-- Along every run of attempts that nothing outside disturbs: a commit allocates what the job earned exactly when
no pair token is native or no gas was paid, and then the gas has no say in the final checks either. -/
theorem fee_allocations_iff {state : JobState} {earlier : List Attempt} {last : Attempt} {final : JobState}
    (fresh : state.mined = [])
    (baseline : ∀ token, token = job.pair.token0 ∨ token = job.pair.token1 → state.wallet token = context.baseline token)
    (still : Along (afterAttempt market job chain context) (StillAttempt job) state (earlier ++ [last]))
    (ends : run (afterAttempt market job chain context) state (earlier ++ [last]) = final)
    (others : ∀ entry ∈ final.mined, entry.1 ≠ 2 → entry.1 ≠ swapStep →
      chain.moved entry.2 job.pair.token0 = 0 ∧ chain.moved entry.2 job.pair.token1 = 0) :
    (∀ commit, (attempt market job chain context (run (afterAttempt market job chain context) state earlier) last).1 = .ok commit →
      ((commit.allocation0 = earned market job chain context final commit job.pair.token0 ∧
        commit.allocation1 = earned market job chain context final commit job.pair.token1) ↔ GasApart job chain final)) ∧
      (GasApart job chain final → ∀ taxUsdgActual otherAllocations,
        commitFees market job context (withoutGas job chain final) taxUsdgActual otherAllocations =
          commitFees market job context final.wallet taxUsdgActual otherAllocations) := by
  refine ⟨fun commit committed => ?_, fun apart => commitFees_withoutGas apart⟩
  have accounted := attempts_accounted fresh baseline still
  rw [ends] at accounted
  have reached : (attempt market job chain context (run (afterAttempt market job chain context) state earlier) last) =
      (.ok commit, final) := by
    refine Prod.ext committed ?_
    rw [← ends, run_append]
    rfl
  obtain ⟨tax, results, checked⟩ := finishFeeCollection_commits reached
  obtain ⟨retained, first, second⟩ := commitFees_ok checked
  rw [← retained] at first second
  rw [allocation_earned accounted (Or.inl rfl) fun entry member collect swap => (others entry member collect swap).1] at first
  rw [allocation_earned accounted (Or.inr rfl) fun entry member collect swap => (others entry member collect swap).2] at second
  unfold GasApart
  constructor
  · rintro ⟨exact0, exact1⟩
    by_contra native
    rw [not_or, not_and_or, not_not, not_not] at native
    obtain ⟨native0 | native1, paid⟩ := native
    · rw [if_pos native0] at first
      omega
    · rw [if_pos native1] at second
      omega
  · rintro (⟨erc20, erc20'⟩ | free)
    · rw [if_neg erc20, sub_zero] at first
      rw [if_neg erc20', sub_zero] at second
      exact ⟨first, second⟩
    · rw [free, ite_self, sub_zero] at first second
      exact ⟨first, second⟩

end

def exampleMarket : Market where
  settlementToken := 99
  wrappedNative := 98
  threshold := 1000000
  notNative := by decide
  nonneg := by decide

/-- A univ4 position of token 7 against `token0`, which may be the native currency. -/
def exampleJob (token0 : Address) (distinct : token0 ≠ 7) : PositionJob where
  id := 1
  owner := 1
  pair := { token0, token1 := 7, riskToken := 7, quoteToken := token0, distinct, roles := Or.inr ⟨rfl, rfl⟩ }
  handling := .holdTokens
  maxSlippageBps := 100
  rewardQuote := 0
  univ4 := true
  positionManager := 50
  tokenId := 3

def exampleContext : PrecheckContext where
  baseline _ := 1000
  prior _ := 0
  priorPrincipal _ := none
  priorHeld _ := none
  priorProfit _ := none

def exampleChain : ChainFacts 1 :=
  .ofEntries 1 (fun _ => .success) (fun _ => 10)
    (fun _ => [⟨5, .transfer 50 1 100⟩, ⟨7, .transfer 50 1 30⟩]) (fun _ => 100)

def exampleStart : JobState where
  journal := Journal.empty
  swapPlan := Table.empty
  executedSwaps := []
  feeTax := none
  capital := none
  wallet _ := 1000
  mined := []
  settled := []

def exampleAttempt : Attempt where
  landed _ := false
  answer :=
    { collect := { idleSend with outcome := .mined 1 (.ok ()) }, collectDrift := fun _ => 0
      taxQuotes := fun _ _ _ _ => .ok 0, taxReplies := [], turnover := .ok (), strategyReply := idleReply
      cleanup := .ok [], position := .ok (), otherAllocations := fun _ => 0 }

theorem fee_allocations_iff_erc20 :
    let job := exampleJob 5 (by decide)
    let final := afterAttempt exampleMarket job exampleChain exampleContext exampleStart exampleAttempt
    (∀ commit, (attempt exampleMarket job exampleChain exampleContext exampleStart exampleAttempt).1 = .ok commit →
      ((commit.allocation0 = earned exampleMarket job exampleChain exampleContext final commit 5 ∧
        commit.allocation1 = earned exampleMarket job exampleChain exampleContext final commit 7) ↔
          GasApart job exampleChain final)) ∧
      (GasApart job exampleChain final → ∀ taxUsdgActual otherAllocations,
        commitFees exampleMarket job exampleContext (withoutGas job exampleChain final) taxUsdgActual otherAllocations =
          commitFees exampleMarket job exampleContext final.wallet taxUsdgActual otherAllocations) := by
  intro job final
  have mined : final.mined = [(2, 1)] := by decide
  refine @fee_allocations_iff _ job exampleChain _ exampleStart [] exampleAttempt final rfl ?_ ⟨⟨⟨rfl, rfl⟩, ?_, ⟨rfl, rfl⟩⟩, trivial⟩ rfl ?_
  · intro token _
    rfl
  · intro answer member
    cases member
  · intro entry member collect
    change entry ∈ final.mined at member
    rw [mined] at member
    cases List.mem_singleton.mp member
    exact absurd rfl collect

/-- With a native side, the gas of the collection is taken out of the allocation: 90 of the 100 collected. -/
theorem gas_reduces_allocation :
    let job := exampleJob 0 (by decide)
    let final := afterAttempt exampleMarket job exampleChain exampleContext exampleStart exampleAttempt
    ∃ commit, (attempt exampleMarket job exampleChain exampleContext exampleStart exampleAttempt).1 = .ok commit ∧
      commit.allocation0 = 90 ∧ earned exampleMarket job exampleChain exampleContext final commit 0 = 100 := by
  refine ⟨⟨90, 30, 0, 0, 90, 30, 0, 0, 0⟩, ?_, rfl, ?_⟩
  · decide
  · decide

end LpTerminal.FeeCollection
