import LpTerminal.Fables.Signer
import LpTerminal.Lib.Trace

/-!
One executor process over the Fables journal: the runner, the manual recovery calls, and a crash at
any point.
-/

namespace LpTerminal.Fables

open Durable Store

inductive Runner
  | idle
  /-- The receipts of `todo` are still to be read; `unresolved` counts those that stay open. -/
  | reconciling (job : FablesJob) (todo : List FablesJobTx) (unresolved : Nat)
  | stepping (id : JobId)
  | broadcasting (args : SendArgs)
  | waiting (args : SendArgs)
  | attention (id : JobId) (code : FablesError)

/-- The journal is durable; the runner and the rebroadcasts in flight are lost in a crash. -/
structure Runtime where
  store : FablesStore
  runner : Runner := .idle
  rebroadcasts : List (JobId × Nat × Hash) := []

inductive ReceiptAnswer
  | missing
  | shallow
  | deep
  | failed (e : FablesError)

inductive Event
  | takeJob (id : JobId)
  | readReceipt (answer : ReceiptAnswer)
  | finishReconciliation (alive : Nat → Except FablesError Unit)
  | progress (stage : Option FablesJobStage) (context : Option FablesJobContext)
  | sign (stage : FablesJobStage) (hash : Hash) (reads : Except FablesError Nat)
  | broadcastReturned (returned : Except FablesError Hash)
  | receiptReturned (found : Except FablesError Unit) (alive : Except FablesError Unit)
  | complete (newRef : FablesPositionRef) (facts : List FablesCycleFact) (parsed rest : Except FablesError Unit)
  | stageThrows (code : FablesError)
  | stopSteps
  | attend
  | startRebroadcast (id : JobId) (ordinal : Nat)
  | rebroadcastReturned (id : JobId) (ordinal : Nat) (hash : Hash) (returned : Except FablesError Hash)
  | resume (id : JobId)
  | crash

def restarted (store : FablesStore) : Runtime where
  store := left quarantineInterruptedFablesJobs store

/-- Where the runner goes on after a program: to `next`, or to its handler. -/
def Runtime.follow {α : Type} (s : Runtime) (id : JobId) (program : FablesProgram α) (next : α → Runner) : Runtime :=
  match program.run s.store with
  | (.ok a, store) => { s with store, runner := next a }
  | (.error .crashed, store) => restarted store
  | (.error code, store) => { s with store, runner := .attention id code }

def nextOrdinal (store : FablesStore) (id : JobId) : Nat :=
  (fablesJobTransactions store id).foldl (fun most tx => max most (tx.ordinal + 1)) 0

def ReceiptAnswer.read (chain : Hash → FablesReceipt) (hash : Hash) : ReceiptAnswer → ReceiptRead
  | .missing => .missing
  | .shallow => .shallow
  | .deep => .final (chain hash)
  | .failed e => .failed e

section Step

variable (env : SignerEnv) (chain : Hash → FablesReceipt)

def step (s : Runtime) : Event → Runtime
  | .takeJob id =>
    match s.runner, s.store.jobs.get? id with
    | .idle, some job =>
      if job.state.isOpen then
        { s with runner := .reconciling job ((fablesJobTransactions s.store id).filter (·.state.unresolved)) 0 }
      else s
    | _, _ => s
  | .readReceipt answer =>
    match s.runner with
    | .reconciling job (tx :: rest) unresolved =>
      s.follow job.id (reconcileTx tx (answer.read chain tx.hash)) fun stays =>
        .reconciling job rest (if stays then unresolved + 1 else unresolved)
    | _ => s
  | .finishReconciliation alive =>
    match s.runner with
    | .reconciling job [] unresolved =>
      s.follow job.id (reconciled job unresolved alive) fun goes => if goes then .stepping job.id else .idle
    | _ => s
  | .progress stage context =>
    match s.runner with
    | .stepping id => s.follow id (setFablesJobProgress id { stage, context }) fun _ => .stepping id
    | _ => s
  | .sign stage hash reads =>
    match s.runner with
    | .stepping id =>
      match s.store.jobs.get? id with
      | none => { s with runner := .idle }
      | some job =>
        if job.state = .running then
          let args : SendArgs := { job, stage, ordinal := nextOrdinal s.store id, hash }
          s.follow id (signFables env args reads) fun _ => .broadcasting args
        else { s with runner := .idle }
    | _ => s
  | .broadcastReturned returned =>
    match s.runner with
    | .broadcasting args => s.follow args.job.id (broadcastAnswered args returned) fun _ => .waiting args
    | _ => s
  | .receiptReturned found alive =>
    match s.runner with
    | .waiting args =>
      s.follow args.job.id (receiptAnswered args (found.map fun _ => chain args.hash) alive) fun _ => .stepping args.job.id
    | _ => s
  | .complete newRef facts parsed rest =>
    match s.runner with
    | .stepping id => s.follow id (completeFablesJob id newRef facts parsed rest) fun _ => .idle
    | _ => s
  | .stageThrows code =>
    match s.runner with
    | .stepping id => { s with runner := .attention id code }
    | _ => s
  | .stopSteps =>
    match s.runner with
    | .stepping _ => { s with runner := .idle }
    | _ => s
  | .attend =>
    match s.runner with
    | .attention id code => s.follow id (fablesAttention id code) fun _ => .idle
    | _ => s
  | .startRebroadcast id ordinal =>
    match (rebroadcastChecks env id ordinal).run s.store with
    | (.ok hash, store) => { s with store, rebroadcasts := (id, ordinal, hash) :: s.rebroadcasts }
    | (.error _, store) => { s with store }
  | .rebroadcastReturned id ordinal hash returned =>
    if (id, ordinal, hash) ∈ s.rebroadcasts then
      { s with
        store := left (rebroadcastAnswered id ordinal hash returned) s.store
        rebroadcasts := s.rebroadcasts.erase (id, ordinal, hash) }
    else s
  | .resume id => { s with store := left (resumeFablesJob id) s.store }
  | .crash => restarted s.store

end Step

end LpTerminal.Fables
