import LpTerminal.Fables.Jobs

/-!
The sender and the reconciliation of Fables transactions, cut where they wait for the network. The
process can die at every cut, and between any two writes that `alive` stands between.
-/

namespace LpTerminal.Fables

open Durable Store

inductive FablesReceiptStatus
  | success | reverted
  deriving DecidableEq, Repr

structure FablesReceipt where
  status : FablesReceiptStatus
  facts : FablesReceiptFacts

structure SignerEnv where
  executorPaused : Bool
  autoPools : Hash → Bool
  account : Address

structure SendArgs where
  job : FablesJob
  stage : FablesJobStage
  ordinal : Nat
  hash : Hash

def gasEntry (job : FablesJob) (hash : Hash) (facts : FablesReceiptFacts) : FablesLedgerEntry :=
  { strategyId := job.strategyId, jobId := job.id, blockNumber := facts.blockNumber, txHash := hash, kind := .gas, token := zeroAddress
    amount := facts.cost }

/-- Up to the signature and its journal row. `reads` is what the chain answers to the nonce, gas and balance reads. -/
def signFables (env : SignerEnv) (args : SendArgs) (reads : Except FablesError Nat) : FablesProgram Unit := do
  if env.executorPaused then fail .executorPaused
  else if !env.autoPools args.job.config.positionRef.poolId then fail .autoPoolNotApproved
  else if args.job.state ≠ .running ∧ args.job.state ≠ .recovery then fail .jobNotRunning
  else if args.job.stage ≠ args.stage then fail .stageChanged
  else
    let store ← read
    if (fablesJobTransactions store args.job.id).any
        (fun row => row.ordinal = args.ordinal || (row.stage = args.stage && row.state.unresolved)) then fail .txAlreadySent
    else if env.account ≠ args.job.config.owner ∨ some env.account ≠ args.job.config.signerAddress then fail .owner
    else
      let nonce ← reply reads
      recordFablesTxIntent
        { jobId := args.job.id, ordinal := args.ordinal, stage := args.stage, nonce, hash := args.hash, signedTx := some args.hash }

def toRecovery (id : JobId) (errorCode thrown : FablesError) : FablesProgram Unit := do
  setFablesJobProgress id { state := some .recovery, errorCode := some (some errorCode) }
  fail thrown

def broadcastAnswered (args : SendArgs) (returned : Except FablesError Hash) : FablesProgram Unit :=
  match returned with
  | .ok hash =>
    if hash = args.hash then updateFablesTx args.job.id args.ordinal .sent none none
    else toRecovery args.job.id .broadcastUnknown .broadcastHash
  | .error e => toRecovery args.job.id .broadcastUnknown e

def receiptAnswered (args : SendArgs) (answer : Except FablesError FablesReceipt) (alive : Except FablesError Unit) :
    FablesProgram Unit :=
  match answer with
  | .error e => toRecovery args.job.id .receiptUnknown e
  | .ok receipt =>
    match receipt.status with
    | .reverted => do
      updateFablesTx args.job.id args.ordinal .failed (some receipt.facts) (some .txReverted)
      reply alive
      toRecovery args.job.id .txReverted .txReverted
    | .success => do
      updateFablesTx args.job.id args.ordinal .confirmed (some receipt.facts) none
      reply alive
      appendFablesLedger (gasEntry args.job args.hash receipt.facts)

inductive ReceiptRead
  | missing
  | final (receipt : FablesReceipt)
  | shallow
  | failed (e : FablesError)

def reconcileTx (tx : FablesJobTx) (answer : ReceiptRead) : FablesProgram Bool :=
  match answer with
  | .missing => return true
  | .shallow => return true
  | .failed e => fail e
  | .final receipt => do
    match receipt.status with
    | .success => updateFablesTx tx.jobId tx.ordinal .confirmed (some receipt.facts) none
    | .reverted => updateFablesTx tx.jobId tx.ordinal .failed (some receipt.facts) (some .txReverted)
    return false

/-- A crash can land after the final state was stored but before its gas row: rebuild that fact from
the durable receipt fields. -/
def rebuildGas (job : FablesJob) (alive : Nat → Except FablesError Unit) : List FablesJobTx → FablesProgram Unit
  | [] => return ()
  | tx :: rest => do
    reply (alive tx.ordinal)
    if tx.state.unresolved then rebuildGas job alive rest
    else
      match tx.facts with
      | none => fail .gasFactMissing
      | some facts => do
        appendFablesLedger (gasEntry job tx.hash facts)
        rebuildGas job alive rest

def fablesRecoveryRequiresReview : Option FablesError → Bool
  | some .exitUnderpaid | some .exitNotComplete | some .claimNotComplete | some .oldRangeNotSettled | some .feeAccounting
  | some .feeReceiptMismatch | some .swapSettlement | some .depositAccounting | some .depositNotConfirmed
  | some .mintSharesMismatch | some .receiptFacts | some .walletBalanceFell | some .gasFactMissing
  | some .contextBaseline | some .contextExitMinimum | some .contextFees | some .contextPrincipal | some .contextRealized => true
  | _ => false

/-- The end of the reconciliation, and what `runFablesOnce` makes of it: it tells whether the stages may run. -/
def reconciled (job : FablesJob) (unresolved : Nat) (alive : Nat → Except FablesError Unit) : FablesProgram Bool := do
  let store ← read
  rebuildGas job alive (fablesJobTransactions store job.id)
  let store ← read
  if unresolved ≠ 0 then
    match store.jobs.get? job.id with
    | some current =>
      if current.state ≠ .recovery then
        setFablesJobProgress job.id { state := some .recovery, errorCode := some (some .txUnresolved) }
      return false
    | none => return false
  else if (fablesJobTransactions store job.id).any (·.state = .failed) then
    setFablesJobProgress job.id { state := some .recovery, errorCode := some (some .txRevertedReview) }
    return false
  else if job.state = .recovery ∧ fablesRecoveryRequiresReview job.errorCode then return false
  else
    if job.state ≠ .running then setFablesJobProgress job.id { state := some .running, errorCode := some none }
    return true

/-- The handler of `runFablesOnce`. A refusal of the first write is followed by the move to recovery. -/
def fablesAttention (id : JobId) (code : FablesError) : FablesProgram Unit := do
  let store ← read
  match store.jobs.get? id with
  | none => return ()
  | some job =>
    if ¬ job.state.isOpen then return ()
    else
      let first :=
        if job.stage = .precheck ∧ code = .backInRange then cancelFablesJobBackInRange id
        else if job.stage = .precheck then failFablesJobBeforeMutation id code
        else setFablesJobProgress id { state := some .recovery, errorCode := some (some code) }
      let done ← rescue (fun _ => some false) (do first; return true)
      if done then return () else setFablesJobProgress id { state := some .recovery, errorCode := some (some code) }

def rebroadcastChecks (env : SignerEnv) (id : JobId) (ordinal : Nat) : FablesProgram Hash := do
  let store ← read
  match store.jobs.get? id with
  | none => fail .notInRecovery
  | some job =>
    if job.state ≠ .recovery then fail .notInRecovery
    else if env.executorPaused then fail .executorPaused
    else if !env.autoPools job.config.positionRef.poolId then fail .autoPoolNotApproved
    else
      match store.transactions.get? (toLex (id, ordinal)) with
      | none => fail .txNotUnresolved
      | some tx =>
        if ¬ tx.state.unresolved then fail .txNotUnresolved
        else
          match tx.signedTx with
          | none => fail .signedTxUnavailable
          | some signed => if signed ≠ tx.hash then fail .signedHashMismatch else return tx.hash

def rebroadcastAnswered (id : JobId) (ordinal : Nat) (hash : Hash) (returned : Except FablesError Hash) : FablesProgram Unit :=
  match returned with
  | .error e => fail e
  | .ok returned => if returned ≠ hash then fail .broadcastHash else updateFablesTx id ordinal .sent none none

end LpTerminal.Fables
