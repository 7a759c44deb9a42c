import LpTerminal.Executor.Chain
import LpTerminal.Lib.Table

/-!
The durable transaction journal of the jobs: `job_transactions`, with its primary key and its unique
transaction hashes.
-/

namespace LpTerminal.Store

inductive TransactionState
  | sending | sent | confirmed | failed
  deriving DecidableEq, Repr

structure JobTransaction where
  jobId : JobId
  stepIndex : Nat
  txIndex : Nat
  state : TransactionState
  nonce : Option Nat
  txHash : Option Hash
  txTo : Address
  calldataHash : Hash
  blockNumber : Option Nat
  gasUsed : Option Nat
  errorCode : Option ErrorCode
  deriving DecidableEq, Repr

abbrev SlotKey := Nat ×ₗ Nat ×ₗ Nat

def slotKey (jobId : JobId) (stepIndex txIndex : Nat) : SlotKey :=
  toLex (jobId, toLex (stepIndex, txIndex))

def JobTransaction.key (row : JobTransaction) : SlotKey :=
  slotKey row.jobId row.stepIndex row.txIndex

theorem slotKey_inj {job job' : JobId} {step step' index index' : Nat} :
    slotKey job step index = slotKey job' step' index' ↔ job = job' ∧ step = step' ∧ index = index' := by
  simp [slotKey]

/-- `job_transactions`: rows in key order, and no hash on two rows. -/
structure Journal extends Table JobTransaction.key where
  uniqueHash : ∀ first ∈ rows, ∀ second ∈ rows, first.txHash.isSome → first.txHash = second.txHash → first = second

namespace Journal

def empty : Journal := ⟨Table.empty, fun _ member => absurd member List.not_mem_nil⟩

/-- No other row carries the hash of `row`. -/
def HashFree (journal : Journal) (row : JobTransaction) : Prop :=
  ∀ other ∈ journal.rows, other.key ≠ row.key → row.txHash.isSome → other.txHash ≠ row.txHash

instance (journal : Journal) (row : JobTransaction) : Decidable (journal.HashFree row) :=
  inferInstanceAs (Decidable (∀ other ∈ journal.rows, other.key ≠ row.key → row.txHash.isSome → other.txHash ≠ row.txHash))

def put (journal : Journal) (row : JobTransaction) (free : journal.HashFree row) : Journal where
  toTable := journal.toTable.put row
  uniqueHash := by
    intro first left second right hashed same
    rcases Table.mem_put.mp left with rfl | ⟨oldLeft, leftKey⟩ <;>
      rcases Table.mem_put.mp right with rfl | ⟨oldRight, rightKey⟩
    · rfl
    · exact absurd same.symm (free second oldRight rightKey hashed)
    · exact absurd same (free first oldLeft leftKey (same ▸ hashed))
    · exact journal.uniqueHash first oldLeft second oldRight hashed same

end Journal

/-- The arguments of `markTransaction`. -/
structure TransactionMark where
  jobId : JobId
  stepIndex : Nat
  txIndex : Nat
  state : TransactionState
  nonce : Option Nat := none
  txHash : Option Hash := none
  txTo : Address
  calldataHash : Hash
  blockNumber : Option Nat := none
  gasUsed : Option Nat := none
  errorCode : Option ErrorCode := none

def TransactionMark.insert (mark : TransactionMark) : JobTransaction where
  jobId := mark.jobId
  stepIndex := mark.stepIndex
  txIndex := mark.txIndex
  state := mark.state
  nonce := mark.nonce
  txHash := mark.txHash
  txTo := mark.txTo
  calldataHash := mark.calldataHash
  blockNumber := mark.blockNumber
  gasUsed := mark.gasUsed
  errorCode := mark.errorCode

/-- `ON CONFLICT DO UPDATE`: target and calldata are overwritten, a null keeps the old value elsewhere. -/
def TransactionMark.update (mark : TransactionMark) (row : JobTransaction) : JobTransaction :=
  { mark.insert with
    nonce := mark.nonce.or row.nonce
    txHash := mark.txHash.or row.txHash
    blockNumber := mark.blockNumber.or row.blockNumber
    gasUsed := mark.gasUsed.or row.gasUsed
    errorCode := if mark.state = .failed then mark.errorCode.or row.errorCode else none }

def TransactionMark.key (mark : TransactionMark) : SlotKey :=
  slotKey mark.jobId mark.stepIndex mark.txIndex

def TransactionMark.merge (mark : TransactionMark) : Option JobTransaction → JobTransaction
  | none => mark.insert
  | some row => mark.update row

variable {mark : TransactionMark}

@[simp] theorem merge_key {row : Option JobTransaction} :
    (mark.merge row).key = mark.key := by
  cases row <;> rfl

def markTransaction (journal : Journal) (mark : TransactionMark) : Except ErrorCode Journal :=
  let row := mark.merge (journal.get? mark.key)
  if free : journal.HashFree row then .ok (journal.put row free) else .error .uniqueConstraint

def jobTransactions (journal : Journal) (jobId : JobId) : List JobTransaction :=
  journal.rows.filter (fun row => row.jobId = jobId)

def unfinished (row : JobTransaction) : Bool :=
  row.state = .sending || row.state = .failed

def stepTransactions (journal : Journal) (jobId : JobId) (stepIndex : Nat) : List JobTransaction :=
  (jobTransactions journal jobId).filter (fun row => row.stepIndex = stepIndex)

def nextTransactionIndex (journal : Journal) (jobId : JobId) (stepIndex : Nat) : Nat :=
  match (stepTransactions journal jobId stepIndex).find? unfinished with
  | some row => row.txIndex
  | none =>
    match ((stepTransactions journal jobId stepIndex).map JobTransaction.txIndex).max? with
    | none => 0
    | some last => last + 1

def confirmedTransactionsAtNonce (journal : Journal) (nonce : Nat) : List JobTransaction :=
  journal.rows.filter (fun row => row.nonce = some nonce && row.state = .confirmed && row.txHash.isSome)

inductive Verdict
  | confirmed | failed

def reconciled (row : JobTransaction) (verdict : Verdict) (blockNumber : Option Nat) (errorCode : Option ErrorCode) :
    JobTransaction :=
  { row with
    state := match verdict with
      | .confirmed => .confirmed
      | .failed => .failed
    blockNumber := blockNumber.or row.blockNumber
    errorCode := match verdict with
      | .confirmed => none
      | .failed => errorCode }

theorem hashFree_of_mem {journal : Journal} {row row' : JobTransaction} (member : row ∈ journal.rows)
    (sameKey : row'.key = row.key) (sameHash : row'.txHash = row.txHash) : journal.HashFree row' := by
  intro other old different hashed same
  rw [sameHash] at hashed same
  exact different (by rw [sameKey, journal.uniqueHash row member other old hashed same.symm])

/-- An `UPDATE`: a slot without a row is left alone. -/
def reconcileJobTransaction (journal : Journal) (jobId : JobId) (stepIndex txIndex : Nat) (verdict : Verdict)
    (blockNumber : Option Nat) (errorCode : Option ErrorCode) : Journal :=
  match read : journal.get? (slotKey jobId stepIndex txIndex) with
  | none => journal
  | some row => journal.put (reconciled row verdict blockNumber errorCode) (hashFree_of_mem (Table.get?_mem read) rfl rfl)

inductive StepState
  | pending | sending | sent | confirmed | failed
  deriving DecidableEq, Repr

structure JobStep where
  jobId : JobId
  stepIndex : Nat
  state : StepState
  nonce : Option Nat
  txHash : Option Hash
  txTo : Option Address
  calldataHash : Option Hash
  blockNumber : Option Nat
  gasUsed : Option Nat
  errorCode : Option ErrorCode

/-- The arguments of `markStep`, which only updates: a step that was never planned is not created. -/
structure StepMark where
  jobId : JobId
  index : Nat
  state : StepState
  nonce : Option Nat := none
  txHash : Option Hash := none
  txTo : Option Address := none
  calldataHash : Option Hash := none
  blockNumber : Option Nat := none
  gasUsed : Option Nat := none
  errorCode : Option ErrorCode := none

def markStep (steps : List JobStep) (mark : StepMark) : List JobStep :=
  steps.map fun row =>
    if row.jobId = mark.jobId ∧ row.stepIndex = mark.index then
      { row with
        state := mark.state
        nonce := mark.nonce.or row.nonce
        txHash := mark.txHash.or row.txHash
        txTo := mark.txTo.or row.txTo
        calldataHash := mark.calldataHash.or row.calldataHash
        blockNumber := mark.blockNumber.or row.blockNumber
        gasUsed := mark.gasUsed.or row.gasUsed
        errorCode := if mark.state = .failed then mark.errorCode.or row.errorCode else none }
    else row

variable {journal next : Journal}

theorem markTransaction_rows
    (marked : markTransaction journal mark = .ok next) :
    next.toTable = journal.toTable.put (mark.merge (journal.get? mark.key)) := by
  dsimp only [markTransaction] at marked
  split at marked
  · cases marked; rfl
  · cases marked

theorem markTransaction_get?
    (marked : markTransaction journal mark = .ok next) :
    next.get? mark.key = some (mark.merge (journal.get? mark.key)) := by
  have placed := Table.get?_put_same journal.toTable (mark.merge (journal.get? mark.key))
  rwa [merge_key, ← markTransaction_rows marked] at placed

theorem markTransaction_frame {key : SlotKey}
    (marked : markTransaction journal mark = .ok next) (other : key ≠ mark.key) :
    next.get? key = journal.get? key := by
  rw [markTransaction_rows marked]
  exact Table.get?_put_other (by rw [merge_key]; exact other)

variable {row : JobTransaction}

theorem mem_markTransaction
    (marked : markTransaction journal mark = .ok next) :
    row ∈ next.rows ↔ row = mark.merge (journal.get? mark.key) ∨ (row ∈ journal.rows ∧ row.key ≠ mark.key) := by
  rw [markTransaction_rows marked, Table.mem_put, merge_key]

variable {error : Option ErrorCode} {block : Option Nat} {verdict : Verdict}

theorem reconciled_key :
    (reconciled row verdict block error).key = row.key := rfl

variable {stepIndex txIndex : Nat}

theorem reconcileJobTransaction_get? {journal : Journal} {jobId : JobId} {stepIndex txIndex : Nat} {verdict : Verdict}
    {block : Option Nat} {error : Option ErrorCode} :
    (reconcileJobTransaction journal jobId stepIndex txIndex verdict block error).get? (slotKey jobId stepIndex txIndex) =
      (journal.get? (slotKey jobId stepIndex txIndex)).map (reconciled · verdict block error) := by
  unfold reconcileJobTransaction
  split
  · rename_i read; simp [read]
  · rename_i row read
    have key : row.key = slotKey jobId stepIndex txIndex := Table.get?_key read
    have placed := Table.get?_put_same journal.toTable (reconciled row verdict block error)
    rw [reconciled_key, key] at placed
    exact placed.trans (by rw [read]; rfl)

theorem reconcileJobTransaction_frame {journal : Journal} {jobId : JobId}
    {key : SlotKey} (other : key ≠ slotKey jobId stepIndex txIndex) :
    (reconcileJobTransaction journal jobId stepIndex txIndex verdict block error).get? key = journal.get? key := by
  unfold reconcileJobTransaction
  split
  · rfl
  · rename_i row read
    have key : row.key = slotKey jobId stepIndex txIndex := Table.get?_key read
    exact Table.get?_put_other (by rw [reconciled_key, key]; exact other)

theorem mem_reconcileJobTransaction {journal : Journal} {jobId : JobId}
    (member : row ∈ (reconcileJobTransaction journal jobId stepIndex txIndex verdict block error).rows) :
    row ∈ journal.rows ∨ ∃ old ∈ journal.rows, row = reconciled old verdict block error := by
  unfold reconcileJobTransaction at member
  split at member
  · exact Or.inl member
  · rename_i old read
    rcases Table.mem_put.mp member with rfl | ⟨kept, _⟩
    · exact Or.inr ⟨old, Table.get?_mem read, rfl⟩
    · exact Or.inl kept

end LpTerminal.Store
