import LpTerminal.Executor.Chain
import LpTerminal.Lib.Table

/-!
The rows of `jobs`: a job belongs to one strategy for its whole life, and only its state moves.
`ledger_entries`: accounting facts under caller-chosen ids, so that writing one again changes nothing.
-/

namespace LpTerminal.Store

abbrev StrategyId := Nat
abbrev WalletId := Nat

inductive JobStatus
  | planned | running | recovery | completed | failed | cancelled
  deriving DecidableEq, Repr

/-- `state IN ('planned','running','recovery')`. -/
def JobStatus.isOpen : JobStatus → Bool
  | .planned | .running | .recovery => true
  | .completed | .failed | .cancelled => false

structure JobRow where
  id : JobId
  strategyId : StrategyId
  status : JobStatus
  deriving DecidableEq, Repr

abbrev JobTable := Table JobRow.id

def JobRow.withStatus (jobId : JobId) (status : JobStatus) (row : JobRow) : JobRow :=
  if row.id = jobId then { row with status } else row

@[simp] theorem withStatus_id (jobId : JobId) (status : JobStatus) (row : JobRow) : (row.withStatus jobId status).id = row.id := by
  unfold JobRow.withStatus
  split <;> rfl

@[simp] theorem withStatus_strategyId (jobId : JobId) (status : JobStatus) (row : JobRow) :
    (row.withStatus jobId status).strategyId = row.strategyId := by
  unfold JobRow.withStatus
  split <;> rfl

/-- `UPDATE jobs SET state=? WHERE id=?`. -/
def setStatus (jobs : JobTable) (jobId : JobId) (status : JobStatus) : JobTable :=
  jobs.adjust (JobRow.withStatus jobId status) (withStatus_id jobId status)

def strategyOf (jobs : JobTable) (jobId : JobId) : Option StrategyId :=
  (jobs.get? jobId).map JobRow.strategyId

@[simp] theorem strategyOf_setStatus (jobs : JobTable) (jobId other : JobId) (status : JobStatus) :
    strategyOf (setStatus jobs jobId status) other = strategyOf jobs other := by
  unfold strategyOf setStatus
  rw [Table.get?_adjust, Option.map_map]
  exact congrArg (fun f => Option.map f (jobs.get? other)) (funext fun row => withStatus_strategyId jobId status row)

inductive LedgerEntryKind
  | deposit | withdrawal | principalExit | feeGross | protocolFee | incomeTax | swapIn | swapOut | swapCost | gas
  | mintPrincipal | profitHarvest | profitWithdrawalSwapIn | profitWithdrawalSwapOut | profitWithdrawal
  | externalCollect | stakingReward | adjustment
  deriving DecidableEq, Repr

/-- The ids the callers build; `other` stands for those no modelled function reads. -/
inductive LedgerId
  | profitIn (hash : Hash)
  | profitOut (hash : Hash)
  | withdrawal (jobId : JobId)
  | other (id : Nat)
  deriving DecidableEq, Repr

structure LedgerEntry where
  id : LedgerId
  strategyId : StrategyId
  jobId : Option JobId
  txHash : Option Hash
  kind : LedgerEntryKind
  token : Option Address
  amount : Option ℤ

abbrev Ledger := List LedgerEntry

/-- `INSERT OR IGNORE` under the primary key. -/
def insertOrIgnore (ledger : Ledger) (entry : LedgerEntry) : Ledger :=
  if ledger.any (·.id = entry.id) then ledger else ledger ++ [entry]

end LpTerminal.Store
