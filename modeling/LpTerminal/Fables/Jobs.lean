import LpTerminal.Lib.Durable
import LpTerminal.Store.Jobs

/-!
`fables_jobs` with their transaction journal and ledger, and the functions that write them.
-/

namespace LpTerminal.Fables

open Durable Store

inductive FablesJobStage
  | precheck | exit | claim | balance | feeConversionApproval | feeConversion | swapApproval | swap | depositApproval | deposit
  | verify
  deriving DecidableEq, Repr

inductive FablesTxState
  | sending | sent | confirmed | failed | reviewed
  deriving DecidableEq, Repr

inductive FablesStrategyState
  | disabled | monitoring | confirming | paused | dryRunReady | awaitingManual | readError | executing | recovery
  deriving DecidableEq, Repr

inductive FablesError
  | autoDisabled | autoPoolNotApproved | backInRange | broadcastHash | broadcastUnknown | chain | claimNotComplete | configChanged | crashed
  | contextBaseline | contextExitMinimum | contextFees | contextPrincipal | contextRealized | depositAccounting | depositNotConfirmed
  | executorPaused | exitNotComplete | exitReceiptMissing | exitUnderpaid | feeAccounting | feeReceiptMismatch | gasFactMissing
  | gasPriceLimit | gasReserve | interrupted | jobClosed | jobNotRunning | jobStage | mintSharesMismatch | mutationExists
  | notInRecovery | notReady | oldRangeNotSettled | owner | receiptFacts | receiptHashMismatch | receiptUnknown
  | signedHashMismatch | signedTxUnavailable | stageChanged | strategyMissing | swapSettlement | transport | txAlreadySent
  | txMissing | txNotUnresolved | txReverted | txRevertedReview | txUnresolved | uniqueConstraint | wallet | walletBalanceFell
  | walletBusy | walletPendingTx
  deriving DecidableEq, Repr

structure FablesPositionRef where
  poolId : Hash
  hook : Address
  rangeId : Nat
  tickLower : Int
  tickUpper : Int
  deriving DecidableEq, Repr

/-- A parsed strategy config; `settings` stands for the fields that are only compared. -/
structure FablesConfig where
  id : StrategyId
  owner : Address
  enabled : Bool
  executorAuto : Bool
  walletId : Option WalletId
  signerAddress : Option Address
  positionRef : FablesPositionRef
  revision : Nat
  settings : Nat
  deriving DecidableEq, Repr

structure FablesStrategyRow where
  config : FablesConfig
  state : FablesStrategyState

def FablesStrategyRow.id (row : FablesStrategyRow) : StrategyId := row.config.id

structure FablesAmounts where
  amount0 : ℤ
  amount1 : ℤ
  deriving DecidableEq, Repr

structure FablesJobContext where
  baseline : Option FablesAmounts := none
  exitMinimum : Option FablesAmounts := none
  fees : Option FablesAmounts := none
  principal : Option FablesAmounts := none
  realized : Option FablesAmounts := none
  feeConversionDone : Bool := false

structure FablesJob where
  id : JobId
  strategyId : StrategyId
  walletId : WalletId
  config : FablesConfig
  state : JobStatus
  stage : FablesJobStage
  context : FablesJobContext := {}
  errorCode : Option FablesError := none

structure FablesReceiptFacts where
  blockNumber : Nat
  gasUsed : Nat
  gasPrice : Nat
  deriving DecidableEq, Repr

def FablesReceiptFacts.cost (facts : FablesReceiptFacts) : Nat :=
  facts.gasUsed * facts.gasPrice

structure FablesJobTx where
  jobId : JobId
  ordinal : Nat
  stage : FablesJobStage
  state : FablesTxState
  nonce : Nat
  hash : Hash
  signedTx : Option Hash
  facts : Option FablesReceiptFacts := none
  errorCode : Option FablesError := none
  deriving DecidableEq, Repr

def FablesJobTx.key (tx : FablesJobTx) : ℕ ×ₗ ℕ :=
  toLex (tx.jobId, tx.ordinal)

def FablesTxState.unresolved : FablesTxState → Bool
  | .sending | .sent => true
  | .confirmed | .failed | .reviewed => false

inductive FablesCycleKind
  | principalExited | feesClaimed | principalDeposited | feesRetained | walletRemainder | feeConversionInput
  | feeConversionOutput | swapInput | swapOutput
  deriving DecidableEq, Repr

inductive FablesLedgerKind
  | gas
  | cycle (kind : FablesCycleKind)
  deriving DecidableEq, Repr

structure FablesLedgerEntry where
  strategyId : StrategyId
  jobId : JobId
  blockNumber : Nat
  txHash : Hash
  kind : FablesLedgerKind
  token : Address
  amount : ℤ

structure FablesStore where
  strategies : Table FablesStrategyRow.id
  jobs : Table FablesJob.id
  transactions : Table FablesJobTx.key
  ledger : List FablesLedgerEntry

abbrev FablesProgram := Durable FablesError FablesStore

def fablesJobTransactions (store : FablesStore) (jobId : JobId) : List FablesJobTx :=
  store.transactions.rows.filter (·.jobId = jobId)

/-- `UPDATE fables_strategies SET state=? WHERE id=?`. -/
def FablesStore.markStrategy (id : StrategyId) (state : FablesStrategyState) (store : FablesStore) : FablesStore :=
  match store.strategies.get? id with
  | none => store
  | some row => { store with strategies := store.strategies.put { row with state } }

def FablesStore.putJob (job : FablesJob) (store : FablesStore) : FablesStore :=
  { store with jobs := store.jobs.put job }

def FablesStore.putTx (tx : FablesJobTx) (store : FablesStore) : FablesStore :=
  { store with transactions := store.transactions.put tx }

structure Progress where
  state : Option JobStatus := none
  stage : Option FablesJobStage := none
  context : Option FablesJobContext := none
  errorCode : Option (Option FablesError) := none

def setFablesJobProgress (id : JobId) (args : Progress) : FablesProgram Unit := do
  let store ← read
  match store.jobs.get? id with
  | none => fail .jobClosed
  | some row =>
    if row.state = .completed ∨ row.state = .failed ∨ row.state = .cancelled then fail .jobClosed
    else
      let state := args.state.getD row.state
      let stage := args.stage.getD row.stage
      let context := args.context.getD row.context
      let errorCode := args.errorCode.getD row.errorCode
      write (FablesStore.putJob { row with state, stage, context, errorCode })
      if state = .recovery then write (FablesStore.markStrategy row.strategyId .recovery)
      else if state = .running then write (FablesStore.markStrategy row.strategyId .executing)
      else return ()

def quarantineInterruptedFablesJobs : FablesProgram Unit :=
  write fun store => (store.jobs.rows.filter (·.state = .running)).foldl
    (fun after row => FablesStore.markStrategy row.strategyId .recovery
      (after.putJob { row with state := .recovery, errorCode := some .interrupted })) store

def FablesJobTx.review (id : JobId) (tx : FablesJobTx) : FablesJobTx :=
  if tx.jobId = id ∧ tx.state = .failed then { tx with state := .reviewed } else tx

@[simp] theorem review_key (id : JobId) (tx : FablesJobTx) : (tx.review id).key = tx.key := by
  unfold FablesJobTx.review
  split <;> rfl

def resumeFablesJob (id : JobId) : FablesProgram Unit := do
  let store ← read
  match store.jobs.get? id with
  | none => fail .notInRecovery
  | some job =>
    if job.state ≠ .recovery then fail .notInRecovery
    else if (fablesJobTransactions store id).any (·.state.unresolved) then fail .txUnresolved
    else
      write fun store =>
        let transactions := store.transactions.adjust (FablesJobTx.review id) (review_key id)
        FablesStore.markStrategy job.strategyId .executing
          (FablesStore.putJob { job with state := .running, errorCode := none } { store with transactions })

def FablesJobStage.approval : FablesJobStage → Bool
  | .feeConversionApproval | .swapApproval | .depositApproval => true
  | _ => false

def failFablesJobBeforeMutation (id : JobId) (code : FablesError) : FablesProgram Unit := do
  let store ← read
  match store.jobs.get? id with
  | none => fail .jobClosed
  | some job =>
    if ¬ job.state.isOpen then fail .jobClosed
    else if (fablesJobTransactions store id).any (fun tx => tx.state.unresolved || (tx.state = .confirmed && !tx.stage.approval)) then
      fail .mutationExists
    else
      write fun store =>
        FablesStore.markStrategy job.strategyId .paused (store.putJob { job with state := .failed, errorCode := some code })

def cancelFablesJobBackInRange (id : JobId) : FablesProgram Unit := do
  let store ← read
  match store.jobs.get? id with
  | none => fail .jobStage
  | some job =>
    if ¬ job.state.isOpen ∨ job.stage ≠ .precheck then fail .jobStage
    else if fablesJobTransactions store id ≠ [] then fail .mutationExists
    else
      write fun store =>
        FablesStore.markStrategy job.strategyId .monitoring
          (store.putJob { job with state := .cancelled, errorCode := some .backInRange })

structure TxIntent where
  jobId : JobId
  ordinal : Nat
  stage : FablesJobStage
  nonce : Nat
  hash : Hash
  signedTx : Option Hash

/-- `signedTx` carries the hash of the signed bytes. -/
def recordFablesTxIntent (intent : TxIntent) : FablesProgram Unit := do
  let store ← read
  match store.jobs.get? intent.jobId with
  | none => fail .jobNotRunning
  | some job =>
    if job.state ≠ .running ∧ job.state ≠ .recovery then fail .jobNotRunning
    else if intent.signedTx.any (· ≠ intent.hash) then fail .signedHashMismatch
    else if (fablesJobTransactions store intent.jobId).any
        (fun row => row.ordinal = intent.ordinal || (row.stage = intent.stage && row.state.unresolved)) then fail .txAlreadySent
    else if store.transactions.rows.any (·.hash = intent.hash) then fail .uniqueConstraint
    else write (FablesStore.putTx
      { jobId := intent.jobId, ordinal := intent.ordinal, stage := intent.stage, state := .sending, nonce := intent.nonce
        hash := intent.hash, signedTx := intent.signedTx })

def updateFablesTx (id : JobId) (ordinal : Nat) (state : FablesTxState) (facts : Option FablesReceiptFacts)
    (errorCode : Option FablesError) : FablesProgram Unit := do
  let store ← read
  match store.transactions.get? (toLex (id, ordinal)) with
  | none => fail .txMissing
  | some row => write (FablesStore.putTx { row with state, facts := facts <|> row.facts, errorCode })

/-- `one_fables_ledger_fact_per_receipt`. -/
def FablesLedgerEntry.sameFact (entry other : FablesLedgerEntry) : Bool :=
  entry.jobId = other.jobId && entry.txHash = other.txHash && entry.kind = other.kind && entry.token = other.token

def insertFact (ledger : List FablesLedgerEntry) (entry : FablesLedgerEntry) : List FablesLedgerEntry :=
  if ledger.any entry.sameFact then ledger else ledger ++ [entry]

/-- `INSERT OR IGNORE` under the index of receipt facts. -/
def appendFablesLedger (entry : FablesLedgerEntry) : FablesProgram Unit :=
  write fun store => { store with ledger := insertFact store.ledger entry }

structure FablesCycleFact where
  kind : FablesCycleKind
  token : Address
  amount : ℤ
  txHash : Hash
  blockNumber : Nat

def FablesCycleFact.entry (job : FablesJob) (fact : FablesCycleFact) : FablesLedgerEntry :=
  { strategyId := job.strategyId, jobId := job.id, blockNumber := fact.blockNumber, txHash := fact.txHash, kind := .cycle fact.kind
    token := fact.token, amount := fact.amount }

/-- The writes of `completeFablesJob`, in their order. -/
def completedWrites (job : FablesJob) (next : FablesConfig) (facts : List FablesCycleFact) (store : FablesStore) : FablesStore :=
  let ledger := (facts.map (FablesCycleFact.entry job)).foldl insertFact store.ledger
  let strategies := store.strategies.put { config := next, state := .monitoring }
  FablesStore.putJob { job with state := .completed, errorCode := none } { store with strategies, ledger }

/-- `parsed` is the answer of the config parser; `rest` stands for the monitor row, whose write may throw. -/
def completeFablesJob (id : JobId) (newRef : FablesPositionRef) (facts : List FablesCycleFact)
    (parsed rest : Except FablesError Unit) : FablesProgram FablesConfig := do
  let store ← read
  match store.jobs.get? id with
  | none => fail .jobStage
  | some job =>
    if (job.state ≠ .running ∧ job.state ≠ .recovery) ∨ job.stage ≠ .verify then fail .jobStage
    else if (fablesJobTransactions store id).any (·.state.unresolved) then fail .txUnresolved
    else atomically do
      let store ← read
      match store.strategies.get? job.strategyId with
      | none => fail .strategyMissing
      | some row =>
        let current := row.config
        if current.revision ≠ job.config.revision ∨ current.positionRef.poolId ≠ job.config.positionRef.poolId
            ∨ current.positionRef.rangeId ≠ job.config.positionRef.rangeId then fail .configChanged
        else
          reply parsed
          let next := { current with positionRef := newRef, revision := current.revision + 1 }
          write (completedWrites job next facts)
          reply rest
          return next

end LpTerminal.Fables
