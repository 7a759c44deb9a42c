import LpTerminal.Fables.Jobs
import LpTerminal.Lib.Trace
import LpTerminal.Recovery.Classify

/-!
Ordinary and Fables jobs of one signing wallet: the functions that open, move and close them.
-/

namespace LpTerminal.WalletJobs

open Durable Fables Recovery Store Trace

/-- The rows the two schedulers share. A strategy keeps its wallet while its jobs run. -/
structure WalletStore where
  walletOf : StrategyId → Option WalletId
  addressOf : WalletId → Option Address
  jobs : JobTable
  /-- The job has a transaction in state `sending` or `sent`. -/
  unfinished : JobId → Bool
  fables : FablesStore

abbrev OrdinaryProgram := Durable ErrorCode WalletStore

def JobRow.ofWallet (store : WalletStore) (walletId : WalletId) (row : JobRow) : Bool :=
  store.walletOf row.strategyId = some walletId

def walletHasOpenJob (store : WalletStore) (walletId : WalletId) : Bool :=
  store.jobs.rows.any fun row => JobRow.ofWallet store walletId row && row.status.isOpen

def walletHasUnfinishedMutation (store : WalletStore) (walletId : WalletId) : Bool :=
  store.jobs.rows.any fun row => JobRow.ofWallet store walletId row && row.status = .recovery && store.unfinished row.id

def walletHasOpenFablesJob (store : WalletStore) (walletId : WalletId) : Bool :=
  store.fables.jobs.rows.any fun job => job.walletId = walletId && job.state.isOpen

/-- `one_open_job_per_strategy` stands against opening this job. -/
def anotherOpenJob (store : WalletStore) (jobId : JobId) (strategyId : StrategyId) : Bool :=
  store.jobs.rows.any fun row => row.strategyId = strategyId && row.status.isOpen && row.id ≠ jobId

def insertJob (jobId : JobId) (strategyId : StrategyId) (status : JobStatus) : OrdinaryProgram Unit :=
  atomically do
    let store ← read
    match store.walletOf strategyId with
    | none => fail .wallet
    | some walletId =>
      if walletHasUnfinishedMutation store walletId then fail .walletRecovery
      else if walletHasOpenFablesJob store walletId then fail .walletFablesJob
      else if (store.jobs.get? jobId).isSome || anotherOpenJob store jobId strategyId then fail .uniqueConstraint
      else write fun store => { store with jobs := store.jobs.put ⟨jobId, strategyId, status⟩ }

/-- The refusals that `createPlannedJob` and `createProfitWithdrawalJob` answer with `false`. -/
def refused : ErrorCode → Option Bool
  | .uniqueConstraint | .walletRecovery | .walletFablesJob => some false
  | _ => none

def createPlannedJob (jobId : JobId) (strategyId : StrategyId) : OrdinaryProgram Bool :=
  rescue refused do
    insertJob jobId strategyId .planned
    return true

def createProfitWithdrawalJob (jobId : JobId) (strategyId : StrategyId) : OrdinaryProgram Bool :=
  rescue refused do
    insertJob jobId strategyId .running
    return true

def setJobState (jobId : JobId) (status : JobStatus) : OrdinaryProgram Unit :=
  tryWrite fun store =>
    match store.jobs.get? jobId with
    | none => .ok store
    | some row =>
      if status.isOpen && anotherOpenJob store jobId row.strategyId then .error .uniqueConstraint
      else .ok { store with jobs := setStatus store.jobs jobId status }

/-- The first write of `runJob`, for a job that `runnableJobs` returned. -/
def runJob (jobId : JobId) : OrdinaryProgram Unit := do
  let store ← read
  match store.jobs.get? jobId with
  | none => return ()
  | some row => if row.status = .planned then setJobState jobId .running else return ()

def confirmDryRun (jobId : JobId) : OrdinaryProgram Unit := setJobState jobId .completed

/-- A commit of the job: `rest` stands for its other writes, any of which may throw. -/
def commitJob (jobId : JobId) (rest : Except ErrorCode Unit) : OrdinaryProgram Unit :=
  atomically do
    reply rest
    setJobState jobId .completed

/-- The handler of an attempt that threw, in `runJob` and in `executeRecoveryLocked`. -/
def attemptFailed (jobId : JobId) : OrdinaryProgram Unit := setJobState jobId .recovery

def moveJob (jobId : JobId) (allowed : JobStatus → Bool) (status : JobStatus) (refusal : ErrorCode) : OrdinaryProgram Unit :=
  atomically do
    let store ← read
    match store.jobs.get? jobId with
    | none => fail refusal
    | some row => if allowed row.status then setJobState jobId status else fail refusal

def abandonRecoveryJob (jobId : JobId) : OrdinaryProgram Unit :=
  moveJob jobId (fun status => status = .recovery || status = .failed) .failed .recoveryJob

def completeProfitWithdrawalJob (jobId : JobId) : OrdinaryProgram Unit :=
  moveJob jobId (fun status => status = .running || status = .recovery) .completed .profitJob

def abandonProfitWithdrawalJob (jobId : JobId) : OrdinaryProgram Unit :=
  moveJob jobId (fun status => status = .running || status = .recovery) .failed .profitJob

/-- A pending/unknown broadcast remains a recovery lock; proven failures don't. `mutated` tells whether a swap or the unwrap is
confirmed. -/
def failProfitWithdrawalJob (jobId : JobId) (mutated : Bool) : OrdinaryProgram Unit := do
  let store ← read
  setJobState jobId (if store.unfinished jobId || mutated then .recovery else .failed)

/-- The open job of an archived strategy is cancelled; `rest` stands for the other writes. -/
def archiveStrategy (strategyId : StrategyId) (jobId : Option JobId) (rest : Except ErrorCode Unit) : OrdinaryProgram Unit :=
  atomically do
    let store ← read
    match jobId with
    | none => reply rest
    | some jobId =>
      match store.jobs.get? jobId with
      | none => fail .strategyBusy
      | some row =>
        if row.strategyId = strategyId ∧ (row.status = .planned ∨ row.status = .recovery) then do
          setJobState jobId .cancelled
          reply rest
        else fail .strategyBusy

def JobRow.interrupt (row : JobRow) : JobRow :=
  if row.status = .running then { row with status := .recovery } else row

@[simp] theorem interrupt_id (row : JobRow) : (JobRow.interrupt row).id = row.id := by
  unfold JobRow.interrupt
  split <;> rfl

def quarantineInterruptedJobs : OrdinaryProgram Unit :=
  write fun store => { store with jobs := store.jobs.adjust JobRow.interrupt interrupt_id }

/-- `recoveryJobById` accepts abandoned jobs too. -/
def recoveryJobById (store : WalletStore) (jobId : JobId) : Option JobRow :=
  (store.jobs.get? jobId).filter fun row =>
    (row.status = .recovery || row.status = .failed) && (store.walletOf row.strategyId).isSome

/-- `executeRecoveryLocked` up to its first write, with the disposition the inspection returned. -/
def executeRecoveryLocked (jobId : JobId) (disposition : RecoveryDisposition) : OrdinaryProgram Unit := do
  let store ← read
  match recoveryJobById store jobId with
  | none => return ()
  | some _ =>
    match disposition with
    | .manualReview => fail .nonce
    | .waitPending => fail .recoveryPending
    | .restartSafe => abandonRecoveryJob jobId
    | .resumeCollect | .resumeFromWallet | .resumeStakingExit | .resumeRevoke | .commitReady => setJobState jobId .running

def noteTransactions (jobId : JobId) (unfinished : Bool) : OrdinaryProgram Unit :=
  write fun store => { store with unfinished := fun other => if other = jobId then unfinished else store.unfinished other }

def onFables {α : Type} (program : FablesProgram α) : Durable FablesError WalletStore α :=
  within WalletStore.fables (fun store fables => { store with fables }) program

def newFablesJob (config : FablesConfig) (id : JobId) (walletId : WalletId) : FablesJob :=
  { id, strategyId := config.id, walletId, config, state := .planned, stage := .precheck }

/-- `one_open_fables_job_per_strategy` or the primary key stands against this job. -/
def fablesJobTaken (store : FablesStore) (id : JobId) (strategyId : StrategyId) : Bool :=
  (store.jobs.get? id).isSome || store.jobs.rows.any fun job => job.strategyId = strategyId && job.state.isOpen

/-- `config` as the parser returned it, and the fresh id of the job. -/
def createFablesJob (config : FablesConfig) (id : JobId) : Durable FablesError WalletStore Unit := do
  if ¬ config.enabled ∨ ¬ config.executorAuto then fail .autoDisabled
  else
    match config.walletId with
    | none => fail .autoDisabled
    | some walletId =>
      let store ← read
      if store.addressOf walletId ≠ some config.owner then fail .wallet
      else
        atomically do
          let store ← read
          match store.fables.strategies.get? config.id with
          | none => fail .notReady
          | some strategy =>
            if strategy.state ≠ .dryRunReady then fail .notReady
            else if strategy.config ≠ config then fail .configChanged
            else if walletHasOpenJob store walletId then fail .walletBusy
            else if walletHasOpenFablesJob store walletId then fail .walletBusy
            else if fablesJobTaken store.fables id config.id then fail .uniqueConstraint
            else
              write fun store =>
                let fables := FablesStore.markStrategy config.id .executing (store.fables.putJob (newFablesJob config id walletId))
                { store with fables }

def updateFablesMonitorState (id : StrategyId) (state : FablesStrategyState) : FablesProgram Unit :=
  write (FablesStore.markStrategy id state)

inductive Call
  | createPlannedJob (jobId : JobId) (strategyId : StrategyId)
  | createProfitWithdrawalJob (jobId : JobId) (strategyId : StrategyId)
  | runJob (jobId : JobId)
  | confirmDryRun (jobId : JobId)
  | commitJob (jobId : JobId) (rest : Except ErrorCode Unit)
  | attemptFailed (jobId : JobId)
  | abandonRecoveryJob (jobId : JobId)
  | executeRecoveryLocked (jobId : JobId) (disposition : RecoveryDisposition)
  | completeProfitWithdrawalJob (jobId : JobId)
  | abandonProfitWithdrawalJob (jobId : JobId)
  | failProfitWithdrawalJob (jobId : JobId) (mutated : Bool)
  | archiveStrategy (strategyId : StrategyId) (jobId : Option JobId) (rest : Except ErrorCode Unit)
  | quarantineInterruptedJobs
  | noteTransactions (jobId : JobId) (unfinished : Bool)
  | createFablesJob (config : FablesConfig) (id : JobId)
  | updateFablesMonitorState (id : StrategyId) (state : FablesStrategyState)
  | setFablesJobProgress (id : JobId) (args : Progress)
  | quarantineInterruptedFablesJobs
  | recordFablesTxIntent (intent : TxIntent)
  | updateFablesTx (id : JobId) (ordinal : Nat) (state : FablesTxState) (facts : Option FablesReceiptFacts)
      (errorCode : Option FablesError)
  | resumeFablesJob (id : JobId)
  | failFablesJobBeforeMutation (id : JobId) (code : FablesError)
  | cancelFablesJobBackInRange (id : JobId)
  | completeFablesJob (id : JobId) (newRef : FablesPositionRef) (facts : List FablesCycleFact) (parsed rest : Except FablesError Unit)

def afterCall (store : WalletStore) : Call → WalletStore
  | .createPlannedJob jobId strategyId => left (WalletJobs.createPlannedJob jobId strategyId) store
  | .createProfitWithdrawalJob jobId strategyId => left (WalletJobs.createProfitWithdrawalJob jobId strategyId) store
  | .runJob jobId => left (WalletJobs.runJob jobId) store
  | .confirmDryRun jobId => left (WalletJobs.confirmDryRun jobId) store
  | .commitJob jobId rest => left (WalletJobs.commitJob jobId rest) store
  | .attemptFailed jobId => left (WalletJobs.attemptFailed jobId) store
  | .abandonRecoveryJob jobId => left (WalletJobs.abandonRecoveryJob jobId) store
  | .executeRecoveryLocked jobId disposition => left (WalletJobs.executeRecoveryLocked jobId disposition) store
  | .completeProfitWithdrawalJob jobId => left (WalletJobs.completeProfitWithdrawalJob jobId) store
  | .abandonProfitWithdrawalJob jobId => left (WalletJobs.abandonProfitWithdrawalJob jobId) store
  | .failProfitWithdrawalJob jobId mutated => left (WalletJobs.failProfitWithdrawalJob jobId mutated) store
  | .archiveStrategy strategyId jobId rest => left (WalletJobs.archiveStrategy strategyId jobId rest) store
  | .quarantineInterruptedJobs => left WalletJobs.quarantineInterruptedJobs store
  | .noteTransactions jobId unfinished => left (WalletJobs.noteTransactions jobId unfinished) store
  | .createFablesJob config id => left (WalletJobs.createFablesJob config id) store
  | .updateFablesMonitorState id state => left (onFables (WalletJobs.updateFablesMonitorState id state)) store
  | .setFablesJobProgress id args => left (onFables (Fables.setFablesJobProgress id args)) store
  | .quarantineInterruptedFablesJobs => left (onFables Fables.quarantineInterruptedFablesJobs) store
  | .recordFablesTxIntent intent => left (onFables (Fables.recordFablesTxIntent intent)) store
  | .updateFablesTx id ordinal state facts errorCode =>
    left (onFables (Fables.updateFablesTx id ordinal state facts errorCode)) store
  | .resumeFablesJob id => left (onFables (Fables.resumeFablesJob id)) store
  | .failFablesJobBeforeMutation id code => left (onFables (Fables.failFablesJobBeforeMutation id code)) store
  | .cancelFablesJobBackInRange id => left (onFables (Fables.cancelFablesJobBackInRange id)) store
  | .completeFablesJob id newRef facts parsed rest => left (onFables (Fables.completeFablesJob id newRef facts parsed rest)) store

end LpTerminal.WalletJobs
