import LpTerminal.Lib.Fallible
import LpTerminal.Store.Journal

/-!
What recovery concludes from the chain about the journal of a job: one fact per row, and the
disposition of the job.
-/

namespace LpTerminal.Recovery

open Store

inductive RecoveryTxState
  | confirmed | reverted | pending | absent | ambiguous
  deriving DecidableEq, Repr

structure RecoveryTxFact where
  stepIndex : Nat
  txIndex : Nat
  nonce : Option Nat
  hash : Option Hash
  state : RecoveryTxState
  blockNumber : Option Nat
  deriving DecidableEq, Repr

inductive RecoveryDisposition
  | restartSafe | resumeCollect | resumeFromWallet | resumeStakingExit | resumeRevoke | commitReady | waitPending
  | manualReview
  deriving DecidableEq, Repr

def classifyRecovery (transactions : List RecoveryTxFact) (confirmedSteps : List Nat) : RecoveryDisposition :=
  if transactions.any (·.state = .ambiguous) then .manualReview
  else if transactions.any (·.state = .pending) then .waitPending
  else
    let confirmed := transactions.filter (·.state = .confirmed)
    if confirmed.any (·.stepIndex = 8) then
      if confirmedSteps.contains 9 && confirmedSteps.contains 10 then .commitReady else .resumeRevoke
    else if confirmed.any (fun tx => 2 ≤ tx.stepIndex && tx.stepIndex ≤ 7) then .resumeFromWallet
    else if confirmed.any (·.stepIndex = 1) then .resumeCollect
    else if confirmed.any (fun tx => 12 ≤ tx.stepIndex && tx.stepIndex ≤ 14) then .resumeStakingExit
    else .restartSafe

def classifyMissingTransactionNonce (nonce latest pending : Nat) (hasConfirmedLocalReplacement : Bool) :
    RecoveryTxState :=
  if latest > nonce then .absent
  else if pending ≤ nonce then .absent
  else if hasConfirmedLocalReplacement then .absent
  else .ambiguous

theorem classifyMissingTransactionNonce_absent {nonce latest pending : Nat} {replacement : Bool} :
    classifyMissingTransactionNonce nonce latest pending replacement = .absent ↔
      nonce < latest ∨ pending ≤ nonce ∨ replacement = true := by
  unfold classifyMissingTransactionNonce
  split
  · simp [*]
  · split
    · simp [*]
    · cases replacement with
      | true => simp
      | false => simp; omega

/-- The reads of one reconciliation: each happens at most once, so each may fail on its own. -/
inductive RpcRead
  | receipt (slot : SlotKey)
  | transaction (slot : SlotKey)
  | recheck (slot : SlotKey)
  | transactionCounts (slot : SlotKey)
  | candidateTransaction (slot candidate : SlotKey)
  | candidateReceipt (slot candidate : SlotKey)

/-- A chain that stands still while it is read, and the reads that throw. -/
structure Rpc where
  receipts : Hash → Option Receipt
  transactions : Hash → Option Transaction
  latestCount : Address → Nat
  pendingCount : Address → Nat
  fails : RpcRead → Bool

namespace Rpc

def getTransactionReceipt (rpc : Rpc) (read : RpcRead) (hash : Hash) : Option Receipt :=
  if rpc.fails read then none else rpc.receipts hash

def getTransaction (rpc : Rpc) (read : RpcRead) (hash : Hash) : Option Transaction :=
  if rpc.fails read then none else rpc.transactions hash

def getTransactionCounts (rpc : Rpc) (read : RpcRead) (owner : Address) : Except ErrorCode (Nat × Nat) :=
  if rpc.fails read then .error .transport else .ok (rpc.latestCount owner, rpc.pendingCount owner)

end Rpc

section
variable (keccak256 : Calldata → Hash) (rpc : Rpc) (journal : Journal) (owner : Address)

def matchesRow (transaction : Transaction) (row : JobTransaction) : Bool :=
  transaction.sender = owner && transaction.target = some row.txTo && keccak256 transaction.input = row.calldataHash

def provesReplacement (row : JobTransaction) (nonce : Nat) (candidate : JobTransaction) : Bool :=
  if candidate.key = row.key then false
  else
    match candidate.txHash with
    | none => false
    | some candidateHash =>
      match rpc.getTransaction (.candidateTransaction row.key candidate.key) candidateHash,
          rpc.getTransactionReceipt (.candidateReceipt row.key candidate.key) candidateHash with
      | some transaction, some receipt =>
        let candidateMatchesChain :=
          receipt.status = .success && transaction.nonce = nonce && matchesRow keccak256 owner transaction candidate
        let definitelyDifferent := candidate.txTo != row.txTo || candidate.calldataHash != row.calldataHash
        candidateMatchesChain && definitelyDifferent
      | _, _ => false

def hasConfirmedLocalReplacement (row : JobTransaction) (nonce : Nat) : Bool :=
  (confirmedTransactionsAtNonce journal nonce).any (provesReplacement keccak256 rpc owner row nonce)

def missingTransaction (row : JobTransaction) (nonce : Nat) : Except ErrorCode RecoveryTxState := do
  let (latest, pending) ← rpc.getTransactionCounts (.transactionCounts row.key) owner
  let replacement :=
    if latest ≤ nonce ∧ pending > nonce then hasConfirmedLocalReplacement keccak256 rpc journal owner row nonce else false
  return classifyMissingTransactionNonce nonce latest pending replacement

def factOf (row : JobTransaction) (state : RecoveryTxState) (blockNumber : Option Nat) : RecoveryTxFact where
  stepIndex := row.stepIndex
  txIndex := row.txIndex
  nonce := row.nonce
  hash := row.txHash
  state := state
  blockNumber := blockNumber

/-- The chain shows no such transaction; `unknownNonce` is the verdict where no nonce was recorded. -/
def missingFact (row : JobTransaction) (unknownNonce : RecoveryTxState) : Except ErrorCode RecoveryTxFact :=
  match row.nonce with
  | none => .ok (factOf row unknownNonce none)
  | some nonce => do return factOf row (← missingTransaction keccak256 rpc journal owner row nonce) none

def unreadFact (row : JobTransaction) (hash : Hash) : Except ErrorCode RecoveryTxFact :=
  match rpc.getTransaction (.recheck row.key) hash with
  | some _ => .ok (factOf row .pending none)
  | none => missingFact keccak256 rpc journal owner row .ambiguous

def transactionFact (row : JobTransaction) : Except ErrorCode RecoveryTxFact :=
  match row.txHash with
  | some hash =>
    match rpc.getTransactionReceipt (.receipt row.key) hash, rpc.getTransaction (.transaction row.key) hash with
    | some receipt, some transaction =>
      if !matchesRow keccak256 owner transaction row then .ok (factOf row .ambiguous none)
      else .ok (factOf row (if receipt.status = .success then .confirmed else .reverted) (some receipt.blockNumber))
    | _, _ => unreadFact keccak256 rpc journal owner row hash
  | none => missingFact keccak256 rpc journal owner row .absent

end

def reconcileFact (jobId : JobId) (journal : Journal) (fact : RecoveryTxFact) : Journal :=
  match fact.state with
  | .confirmed =>
    reconcileJobTransaction journal jobId fact.stepIndex fact.txIndex .confirmed fact.blockNumber none
  | .reverted =>
    reconcileJobTransaction journal jobId fact.stepIndex fact.txIndex .failed fact.blockNumber (some .txReverted)
  | .absent =>
    reconcileJobTransaction journal jobId fact.stepIndex fact.txIndex .failed fact.blockNumber (some .txAbsent)
  | .pending | .ambiguous => journal

def reconcileRecoveryTransactions (keccak256 : Calldata → Hash) (rpc : Rpc) (recoveryJobById : JobId → Option Address)
    (journal : Journal) (jobId : JobId) (reconcile : Bool) : Except ErrorCode (List RecoveryTxFact × Journal) :=
  match recoveryJobById jobId with
  | none => .error .recoveryJob
  | some owner =>
    match Fallible.collect (transactionFact keccak256 rpc journal owner) (jobTransactions journal jobId) with
    | .error error => .error error
    | .ok transactions =>
      .ok (transactions, if reconcile then transactions.foldl (reconcileFact jobId) journal else journal)

end LpTerminal.Recovery
