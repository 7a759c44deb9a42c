import LpTerminal.Executor.Receipts
import LpTerminal.Recovery.Classify
import LpTerminal.Store.ProfitMutation

/-!
The withdrawal of retained profit: its live execution, the recovery of an interrupted one, and what its two allocation updates do.
-/

namespace LpTerminal.Withdrawal

open Allocations Durable Fallible Receipts Recovery Store

inductive ProfitWithdrawalTarget
  | usdg | weth | eth
  deriving DecidableEq, Repr

structure ProfitSwapRecord where
  stepIndex : ℕ
  tokenIn : Address
  tokenOut : Address
  amountIn : ℤ
  minOut : ℤ
  deriving DecidableEq, Repr

structure Release where
  amountOut : ℤ
  quoteValue : ℤ
  usdgValue : ℤ

structure ProfitWithdrawalContext where
  target : ProfitWithdrawalTarget
  settlementToken : Address
  trackedTokens : List Address
  sources : List (Address × ℤ)
  swaps : List ProfitSwapRecord
  release : Option Release

/-- A row of `job_transactions`, from the mark that precedes its broadcast. -/
structure SentTransaction where
  jobId : JobId
  stepIndex : ℕ
  hash : Hash
  deriving DecidableEq, Repr

structure WithdrawalState where
  store : AllocationStore
  /-- The state of the withdrawal's own job, once it exists. -/
  status : Option JobStatus
  context : Option ProfitWithdrawalContext
  journal : List SentTransaction

/-- One withdrawal: its job, the strategy, and the network's settlement tokens. -/
structure ProfitJob where
  jobId : JobId
  strategyId : StrategyId
  walletId : WalletId
  owner : Address
  target : ProfitWithdrawalTarget
  stable : Address
  wnative : Address

def ProfitJob.settlementToken (job : ProfitJob) : Address :=
  match job.target with
  | .usdg => job.stable
  | _ => job.wnative

abbrev Program (α : Type) := Durable ErrorCode WithdrawalState α

def onStore {α : Type} (m : Durable ErrorCode AllocationStore α) : Program α := ⟨fun state =>
  ((m.run state.store).1, { state with store := (m.run state.store).2 })⟩

def parts (job : ProfitJob) (store : AllocationStore) (token : Address) : AllocationComponent :=
  (strategyAllocationComponents store job.strategyId token).getD .zero

def setContext (context : ProfitWithdrawalContext) : Program Unit :=
  write fun state => { state with context := some context }

def setStatus (status : JobStatus) : Program Unit :=
  write fun state => { state with status := some status }

/-- A transaction: what stops it before its row is written, its hash, and whether its receipt is a success. -/
structure Sending where
  preflight : Except ErrorCode Unit := .ok ()
  hash : Hash
  outcome : Except ErrorCode Unit := .ok ()

def sendTracked (job : ProfitJob) (stepIndex : ℕ) (sending : Sending) : Program Unit := do
  reply sending.preflight
  tryWrite fun state =>
    if state.journal.any (·.hash = sending.hash) then .error .uniqueConstraint
    else .ok { state with journal := state.journal ++ [⟨job.jobId, stepIndex, sending.hash⟩] }
  reply sending.outcome

/-- `exactAllowance` sends nothing, one transaction or two. -/
def exactAllowance (job : ProfitJob) (stepIndex : ℕ) : List Sending → Program Unit
  | [] => return ()
  | sending :: rest => do
    sendTracked job stepIndex sending
    exactAllowance job stepIndex rest

def swapInEntry (job : ProfitJob) (swap : ProfitSwapRecord) (hash : Hash) (spent : ℤ) : LedgerEntry where
  id := .profitIn hash
  strategyId := job.strategyId
  jobId := some job.jobId
  txHash := some hash
  kind := .profitWithdrawalSwapIn
  token := some swap.tokenIn
  amount := some spent

def swapOutEntry (job : ProfitJob) (swap : ProfitSwapRecord) (hash : Hash) (gained : ℤ) : LedgerEntry where
  id := .profitOut hash
  strategyId := job.strategyId
  jobId := some job.jobId
  txHash := some hash
  kind := .profitWithdrawalSwapOut
  token := some swap.tokenOut
  amount := some gained

def trackedBalances (tokens : List Address) (balances : Address → ℤ) : Record ℤ :=
  tokens.map fun token => (.ofLowerCase token, balances token)

def moveArgs (job : ProfitJob) (store : AllocationStore) (swap : ProfitSwapRecord) (hash : Hash) (spent gained : ℤ) (balances : Record ℤ)
    (stored : Except ErrorCode Unit) : MutationArgs :=
  let sourceBefore := parts job store swap.tokenIn
  let targetBefore := parts job store swap.tokenOut
  { strategyId := job.strategyId, walletId := job.walletId, balances, stored
    expected := [(.ofLowerCase swap.tokenIn, sourceBefore), (.ofLowerCase swap.tokenOut, targetBefore)]
    next := [(.ofLowerCase swap.tokenIn, { sourceBefore with heldProfit := sourceBefore.heldProfit - spent }),
      (.ofLowerCase swap.tokenOut, { targetBefore with heldProfit := targetBefore.heldProfit + gained })]
    ledger := [swapInEntry job swap hash spent, swapOutEntry job swap hash gained] }

def moveProfit (job : ProfitJob) (swap : ProfitSwapRecord) (hash : Hash) (spent gained : ℤ) (balances : Except ErrorCode (Record ℤ))
    (stored : Except ErrorCode Unit) : Program Unit := do
  reply (demand (spent = swap.amountIn ∧ swap.minOut ≤ gained) .unsupportedToken)
  let state ← read
  reply (demand (spent ≤ (parts job state.store swap.tokenIn).heldProfit) .allocationChanged)
  let balances ← reply balances
  onStore (commitProfitAllocationMutation (moveArgs job state.store swap hash spent gained balances stored))

def withdrawalEntry (job : ProfitJob) (context : ProfitWithdrawalContext) (amountOut : ℤ) (finalTx : Option Hash) : LedgerEntry where
  id := .withdrawal job.jobId
  strategyId := job.strategyId
  jobId := some job.jobId
  txHash := finalTx
  kind := .profitWithdrawal
  token := some context.settlementToken
  amount := some amountOut

def releaseArgs (job : ProfitJob) (store : AllocationStore) (context : ProfitWithdrawalContext) (amountOut : ℤ) (finalTx : Option Hash)
    (balances : Record ℤ) (stored : Except ErrorCode Unit) : MutationArgs :=
  let releaseBefore := parts job store context.settlementToken
  { strategyId := job.strategyId, walletId := job.walletId, balances, stored
    expected := [(.ofLowerCase context.settlementToken, releaseBefore)]
    next := [(.ofLowerCase context.settlementToken, { releaseBefore with heldProfit := 0 })]
    ledger := [withdrawalEntry job context amountOut finalTx] }

structure FinalAnswers where
  balances : Except ErrorCode (Address → ℤ)
  stored : Except ErrorCode Unit := .ok ()
  /-- What comes between the commit and the completion: a crash, or nothing. -/
  survives : Except ErrorCode Unit := .ok ()

def completeProfitWithdrawalJob : Program Unit := do
  let state ← read
  reply (demand (state.status = some .running ∨ state.status = some .recovery) .profitJob)
  setStatus .completed

def abandonProfitWithdrawalJob : Program Unit := do
  let state ← read
  reply (demand (state.status = some .running ∨ state.status = some .recovery) .profitJob)
  setStatus .failed

/-- `finalTx` is the last of the receipts at hand. -/
def finalizeWithdrawal (job : ProfitJob) (context : ProfitWithdrawalContext) (finalTx : Option Hash) (answers : FinalAnswers) :
    Program Unit := do
  match context.release with
  | none => fail .profitContext
  | some release => do
    let balances ← reply answers.balances
    let state ← read
    reply (demand ((parts job state.store context.settlementToken).heldProfit = release.amountOut) .allocationChanged)
    onStore (commitProfitAllocationMutation
      (releaseArgs job state.store context release.amountOut finalTx (trackedBalances context.trackedTokens balances) answers.stored))
    reply answers.survives
    completeProfitWithdrawalJob

/-- What one conversion meets. After the swap the wallet holds what it held before and what the transaction moved. -/
structure ConversionAnswers where
  minOut : Except ErrorCode ℤ
  approval : List Sending := []
  before : Except ErrorCode (Address → ℤ)
  swap : Sending
  after : Except ErrorCode Unit := .ok ()
  stored : Except ErrorCode Unit := .ok ()
  revocation : List Sending := []

structure LiveAnswers where
  /-- The checks before the job exists. -/
  admitted : Except ErrorCode (List Address)
  survives : Except ErrorCode Unit := .ok ()
  conversions : ℕ → ConversionAnswers
  mark : Except ErrorCode (ℤ × ℤ)
  unwrap : Sending
  unwrapped : Except ErrorCode Unit := .ok ()
  final : FinalAnswers

variable (job : ProfitJob) (chain : ChainFacts job.owner)

def jobRows (state : WithdrawalState) : List SentTransaction :=
  state.journal.filter (·.jobId = job.jobId)

def lastTransaction (holds : Hash → Bool) (state : WithdrawalState) : Option Hash :=
  (((jobRows job state).filter fun row => holds row.hash).getLast?).map SentTransaction.hash

def profitSources (store : AllocationStore) : List (Address × ℤ) :=
  ((store.allocations.rows.filter (·.strategyId = job.strategyId)).map fun row =>
    (row.token, (parts job store row.token).heldProfit)).filter fun source => 0 < source.2

/-- The steps of `conversions` swaps; they are rows under a primary key. -/
def withdrawalSteps (conversions : ℕ) : List ℕ :=
  List.range (3 * conversions) ++ (if job.target = .eth then [9] else []) ++ [11]

def convert (context : ProfitWithdrawalContext) (index : ℕ) (source : Address × ℤ) (answers : ConversionAnswers) :
    Program ProfitWithdrawalContext := do
  let minOut ← reply answers.minOut
  let swap : ProfitSwapRecord := ⟨3 * index + 1, source.1, job.settlementToken, source.2, minOut⟩
  let context := { context with swaps := context.swaps ++ [swap] }
  setContext context
  exactAllowance job (3 * index) answers.approval
  let before ← reply answers.before
  sendTracked job (3 * index + 1) answers.swap
  reply answers.after
  let hash := answers.swap.hash
  let after (token : Address) : ℤ := before token + chain.felt hash token
  moveProfit job swap hash
    (spentByWallet (before source.1) (after source.1) (chain.receiptOf hash) source.1)
    (receivedByWallet (before job.settlementToken) (after job.settlementToken) (chain.receiptOf hash) job.settlementToken)
    (.ok (trackedBalances context.trackedTokens after)) answers.stored
  exactAllowance job (3 * index + 2) answers.revocation
  return context

def convertAll (answers : ℕ → ConversionAnswers) :
    ℕ → List (Address × ℤ) → ProfitWithdrawalContext → Program ProfitWithdrawalContext
  | _, [], context => return context
  | index, source :: rest, context =>
    if source.1 = job.settlementToken then convertAll answers index rest context
    else do
      let context ← convert job chain context index source (answers index)
      convertAll answers (index + 1) rest context

def withdrawRetainedProfit (answers : LiveAnswers) : Program Unit := do
  let trackedTokens ← reply answers.admitted
  let state ← read
  let sources := profitSources job state.store
  reply (demand (sources ≠ []) .noRetainedProfit)
  reply (demand (withdrawalSteps job (sources.filter (·.1 ≠ job.settlementToken)).length).Nodup .strategyBusy)
  setStatus .running
  reply answers.survives
  let context : ProfitWithdrawalContext := ⟨job.target, job.settlementToken, trackedTokens, sources, [], none⟩
  setContext context
  let context ← convertAll job chain answers.conversions 0 sources context
  let state ← read
  let amountOut := (parts job state.store job.settlementToken).heldProfit
  reply (demand (0 < amountOut) .noRetainedProfit)
  let (quoteValue, usdgValue) ← reply answers.mark
  let context := { context with release := some ⟨amountOut, quoteValue, usdgValue⟩ }
  setContext context
  if job.target = .eth then do
    sendTracked job 9 answers.unwrap
    reply answers.unwrapped
    let state ← read
    finalizeWithdrawal job context (lastTransaction job (fun _ => true) state) answers.final
  else finalizeWithdrawal job context (lastTransaction job (fun _ => true) state) answers.final

structure RecoveryAnswers where
  reconciled : Except ErrorCode Unit := .ok ()
  /-- What reconciliation says of each transaction of the job. -/
  fate : Hash → RecoveryTxState
  balances : ℕ → Except ErrorCode (Address → ℤ)
  stored : ℕ → Except ErrorCode Unit := fun _ => .ok ()
  mark : Except ErrorCode (ℤ × ℤ)
  final : FinalAnswers

/-- `receiptByStep`: the last confirmed transaction of a step. -/
def confirmedAt (fate : Hash → RecoveryTxState) (state : WithdrawalState) (stepIndex : ℕ) : Option Hash :=
  (((jobRows job state).filter fun row => row.stepIndex = stepIndex ∧ fate row.hash = .confirmed).map SentTransaction.hash).getLast?

def recordedEntries (ledger : Ledger) (hash : Hash) : List LedgerEntry :=
  ledger.filter fun entry => entry.strategyId = job.strategyId ∧ entry.txHash = some hash ∧
    (entry.kind = .profitWithdrawalSwapIn ∨ entry.kind = .profitWithdrawalSwapOut)

def recordedAgrees (swap : ProfitSwapRecord) (recorded : List LedgerEntry) : Prop :=
  (∃ entry ∈ recorded.find? (·.kind = .profitWithdrawalSwapIn), entry.amount = some swap.amountIn) ∧
    ∃ entry ∈ recorded.find? (·.kind = .profitWithdrawalSwapOut), ∃ amount ∈ entry.amount, swap.minOut ≤ amount

instance (swap : ProfitSwapRecord) (recorded : List LedgerEntry) : Decidable (recordedAgrees swap recorded) := by
  unfold recordedAgrees
  cases recorded.find? (·.kind = .profitWithdrawalSwapIn) <;> cases recorded.find? (·.kind = .profitWithdrawalSwapOut) <;>
    simp only [Option.mem_def, reduceCtorEq, Option.some.injEq, exists_eq_left', false_and, exists_false, and_false] <;>
    infer_instance

def recoverSwap (answers : RecoveryAnswers) (context : ProfitWithdrawalContext) (swap : ProfitSwapRecord) : Program Bool := do
  let state ← read
  match confirmedAt job answers.fate state swap.stepIndex with
  | none => return false
  | some hash =>
    let recorded := recordedEntries job state.store.ledger hash
    if recorded ≠ [] then do
      reply (demand (recordedAgrees swap recorded) .allocationChanged)
      return true
    else do
      reply (demand (swap.tokenIn ≠ zeroAddress ∧ swap.tokenOut ≠ zeroAddress) .nativeProfitRecovery)
      moveProfit job swap hash (-receiptTokenDelta (chain.receiptOf hash) swap.tokenIn job.owner)
        (receiptTokenDelta (chain.receiptOf hash) swap.tokenOut job.owner)
        ((answers.balances swap.stepIndex).map (trackedBalances context.trackedTokens)) (answers.stored swap.stepIndex)
      return true

def recoverSwaps (answers : RecoveryAnswers) (context : ProfitWithdrawalContext) : List ProfitSwapRecord → Program Bool
  | [] => return true
  | swap :: rest => do
    let confirmed ← recoverSwap job chain answers context swap
    let others ← recoverSwaps answers context rest
    return confirmed && others

inductive Disposition
  | committed | retry
  deriving DecidableEq, Repr

def existingSummary (ledger : Ledger) : Option LedgerEntry :=
  ledger.find? fun entry => entry.strategyId = job.strategyId ∧ entry.jobId = some job.jobId ∧ entry.kind = .profitWithdrawal

def recoverRelease (answers : RecoveryAnswers) (context : ProfitWithdrawalContext) : Program ProfitWithdrawalContext := do
  match context.release with
  | some _ => return context
  | none => do
    let state ← read
    let settlement := (parts job state.store context.settlementToken).heldProfit
    reply (demand (0 < settlement) .noRetainedProfit)
    let (quoteValue, usdgValue) ← reply answers.mark
    let context := { context with release := some ⟨settlement, quoteValue, usdgValue⟩ }
    setContext context
    return context

def recoverRetainedProfit (answers : RecoveryAnswers) : Program Disposition := do
  let state ← read
  reply (demand (state.status = some .recovery ∨ state.status = some .failed) .profitJob)
  match state.context with
  | none => fail .profitContext
  | some context => do
    reply answers.reconciled
    reply (demand (∀ row ∈ jobRows job state, answers.fate row.hash ≠ .ambiguous) .nonce)
    reply (demand (∀ row ∈ jobRows job state, answers.fate row.hash ≠ .pending) .recoveryPending)
    let confirmed ← recoverSwaps job chain answers context context.swaps
    let state ← read
    let retained := context.sources.any fun source => source.1 ≠ context.settlementToken && 0 < (parts job state.store source.1).heldProfit
    match existingSummary job state.store.ledger with
    | some _ => do
      completeProfitWithdrawalJob
      return .committed
    | none =>
      if !confirmed || retained then do
        abandonProfitWithdrawalJob
        return .retry
      else do
        let context ← recoverRelease job answers context
        if job.target = .eth ∧ confirmedAt job answers.fate state 9 = none then do
          abandonProfitWithdrawalJob
          return .retry
        else do
          finalizeWithdrawal job context (lastTransaction job (answers.fate · = .confirmed) state) answers.final
          return .committed

def failProfitWithdrawalJob (unfinished : Bool) : Program Unit :=
  setStatus (if unfinished then .recovery else .failed)

def execute (answers : LiveAnswers) (crashed unfinished : Bool) (state : WithdrawalState) : WithdrawalState :=
  match (withdrawRetainedProfit job chain answers).run state with
  | (.ok _, after) => after
  | (.error _, after) => if crashed || after.status.isNone then after else left (failProfitWithdrawalJob unfinished) after

/-- What happens to the job later: a recovery, or another writer of its state. -/
inductive Event
  | recover (answers : RecoveryAnswers)
  | mark (status : JobStatus)

def afterEvent (state : WithdrawalState) : Event → WithdrawalState
  | .recover answers => left (recoverRetainedProfit job chain answers) state
  | .mark status => left (setStatus status) state

variable {job : ProfitJob} {state : WithdrawalState}

theorem triple_onStore {α : Type} {m : Durable ErrorCode AllocationStore α} {Q : α → AllocationStore → Prop} {E : AllocationStore → Prop}
    (triple : Triple (· = state.store) m Q E) :
    Triple (· = state) (onStore m) (fun a after => Q a after.store ∧ after = { state with store := after.store })
      (fun after => E after.store ∧ after = { state with store := after.store }) := by
  intro here same
  subst same
  have spec := triple here.store rfl
  unfold onStore
  rcases ran : m.run here.store with ⟨outcome, store⟩
  rw [ran] at spec
  dsimp only
  rw [ran]
  cases outcome with
  | ok a => exact ⟨spec, rfl⟩
  | error e => exact ⟨spec, rfl⟩

def shifted (parts : AllocationComponent) (profit : ℤ) : AllocationComponent :=
  { parts with heldProfit := parts.heldProfit + profit }

@[simp] theorem shifted_zero (parts : AllocationComponent) : shifted parts 0 = parts := by
  simp [shifted]

/-- An allocation update that returned: the profit of each token moved, and entries went to the ledger. -/
structure Updated (job : ProfitJob) (before after : WithdrawalState) (profit : Address → ℤ) (entries : List LedgerEntry) : Prop where
  elsewhere : after = { before with store := after.store }
  parts : ∀ token, parts job after.store token = shifted (parts job before.store token) (profit token)
  ledger : after.store.ledger = entries.foldl insertOrIgnore before.store.ledger

theorem onStore_mutation_spec (args : MutationArgs) (own : args.strategyId = job.strategyId) {profit : Address → ℤ}
    (given : ∀ token, (lastFor args.next token).getD (parts job state.store token) = shifted (parts job state.store token) (profit token)) :
    Triple (· = state) (onStore (commitProfitAllocationMutation args)) (fun _ after => Updated job state after profit args.ledger)
      (· = state) := by
  refine triple_weaken (triple_onStore (mutation_spec args state.store)) (fun _ same => same) ?_ ?_
  · rintro _ after ⟨⟨accepted, components, written, stored⟩, elsewhere⟩
    refine ⟨elsewhere, fun token => ?_, by rw [stored]; rfl⟩
    have here := mutated_parts written accepted.nonNegative token
    rw [own] at here
    rw [← given token, stored]
    exact here
  · rintro after ⟨⟨_, same⟩, elsewhere⟩
    rw [elsewhere, same]

def moveOf (swap : ProfitSwapRecord) (spent gained : ℤ) (token : Address) : ℤ :=
  (if token = swap.tokenIn then -spent else 0) + (if token = swap.tokenOut then gained else 0)

theorem moveProfit_spec {swap : ProfitSwapRecord} (apart : swap.tokenIn ≠ swap.tokenOut) (hash : Hash) (spent gained : ℤ)
    (balances : Except ErrorCode (Record ℤ)) (stored : Except ErrorCode Unit) :
    Triple (· = state) (moveProfit job swap hash spent gained balances stored)
      (fun _ after => Updated job state after (moveOf swap spent gained)
        [swapInEntry job swap hash spent, swapOutEntry job swap hash gained])
      (· = state) := by
  refine triple_bind (Q := fun _ here => here = state) (triple_reply (fun _ _ same _ => same) fun _ _ same _ => same) fun _ => ?_
  refine triple_bind (Q := fun told here => told = state ∧ here = state) (triple_read fun _ same => ⟨same, same⟩) fun told => ?_
  refine triple_assume fun here => ?_
  subst here
  refine triple_bind (Q := fun _ here => here = told) (triple_reply (fun _ _ same _ => same) fun _ _ same _ => same) fun _ => ?_
  refine triple_bind (Q := fun _ here => here = told) (triple_reply (fun _ _ same _ => same) fun _ _ same _ => same) fun balances => ?_
  refine onStore_mutation_spec (moveArgs job told.store swap hash spent gained balances stored) rfl fun token => ?_
  dsimp only [moveArgs]
  rw [lastFor_cons, lastFor_cons]
  by_cases input : token = swap.tokenIn
  · subst input
    simp [lastFor, RawToken.toLowerCase, RawToken.ofLowerCase, Ne.symm apart, apart, moveOf, shifted, sub_eq_add_neg]
  · by_cases output : token = swap.tokenOut
    · subst output
      simp [lastFor, RawToken.toLowerCase, RawToken.ofLowerCase, input, moveOf, shifted]
    · simp [lastFor, RawToken.toLowerCase, RawToken.ofLowerCase, input, output, Ne.symm input, Ne.symm output, moveOf]

def releaseOf (settlementToken : Address) (amountOut : ℤ) (token : Address) : ℤ :=
  if token = settlementToken then -amountOut else 0

theorem release_spec {context : ProfitWithdrawalContext} {amountOut : ℤ} (finalTx : Option Hash) (balances : Record ℤ)
    (stored : Except ErrorCode Unit) (whole : (parts job state.store context.settlementToken).heldProfit = amountOut) :
    Triple (· = state) (onStore (commitProfitAllocationMutation (releaseArgs job state.store context amountOut finalTx balances stored)))
      (fun _ after => Updated job state after (releaseOf context.settlementToken amountOut)
        [withdrawalEntry job context amountOut finalTx])
      (· = state) := by
  refine onStore_mutation_spec (releaseArgs job state.store context amountOut finalTx balances stored) rfl fun token => ?_
  dsimp only [releaseArgs]
  rw [lastFor_cons]
  by_cases settlement : token = context.settlementToken
  · subst settlement
    simp [lastFor, RawToken.toLowerCase, RawToken.ofLowerCase, releaseOf, shifted, whole]
  · simp [lastFor, RawToken.toLowerCase, RawToken.ofLowerCase, settlement, Ne.symm settlement, releaseOf]

end LpTerminal.Withdrawal
