import LpTerminal.Lib.Buckets
import LpTerminal.Store.Jobs
import Mathlib.Algebra.Order.Group.Nat
import Mathlib.Algebra.GroupWithZero.Nat

/-!
The settlement income a strategy keeps in its owner's wallet, as the performance report counts it.
-/

namespace LpTerminal.Retention

open Buckets Store

inductive AmountText
  | digits (value : ℕ)
  | other
  deriving DecidableEq, Repr

/-- `feeTax` tells that the meta text parses and its purpose is `fee_tax`. -/
structure LedgerRow where
  jobId : JobId
  cycleId : Option JobId
  kind : LedgerEntryKind
  token : Option Address
  amount : Option AmountText
  feeTax : Bool

def LedgerRow.value (row : LedgerRow) : ℕ :=
  match row.amount with
  | some (.digits value) => value
  | _ => 0

def LedgerRow.hasDigits (row : LedgerRow) : Bool :=
  match row.amount with
  | some (.digits _) => true
  | _ => false

def valueIn (selects : LedgerRow → Bool) (rows : List LedgerRow) : ℕ :=
  ((rows.filter selects).map LedgerRow.value).sum

section Settlement

variable (settlement : Address)

def isSettlementIncomeTaxRow (row : LedgerRow) : Bool :=
  row.kind = .incomeTax && row.hasDigits && row.token = some settlement

def isFeeTaxSwapOutputRow (row : LedgerRow) : Bool :=
  row.kind = .swapOut && row.hasDigits && row.token = some settlement && row.feeTax

def explicitIn (rows : List LedgerRow) : ℕ :=
  valueIn (isSettlementIncomeTaxRow settlement) rows

def swapOutputIn (rows : List LedgerRow) : ℕ :=
  valueIn (isFeeTaxSwapOutputRow settlement) rows

def bucketRetention (rows : List LedgerRow) : ℕ :=
  if 0 < explicitIn settlement rows then explicitIn settlement rows else swapOutputIn settlement rows

def countsForRetention (row : LedgerRow) : Bool :=
  row.kind = .incomeTax || isFeeTaxSwapOutputRow settlement row

/-- A null `cycle_id` is one more key. -/
def retainedIncomeSettlementRaw (rows : List LedgerRow) : ℕ :=
  ((group LedgerRow.cycleId (rows.filter (countsForRetention settlement))).map fun bucket => bucketRetention settlement bucket.2).sum

def jobRetention (rows : List LedgerRow) (jobId : JobId) : ℕ :=
  let own := rows.filter (·.jobId = jobId)
  if own.any (isSettlementIncomeTaxRow settlement) then explicitIn settlement own else swapOutputIn settlement own

end Settlement

structure LedgerLine where
  kind : LedgerEntryKind
  token : Option Address
  amount : Option AmountText
  feeTax : Bool

/-- `commitRebalance` and `commitHoldQuote` write their rows under the cycle of the job, `commitFeeCollection` under none. -/
inductive Commit
  | cycle (jobId : JobId) (lines : List LedgerLine)
  | feeCollection (jobId : JobId) (lines : List LedgerLine)

def Commit.jobId : Commit → JobId
  | .cycle jobId _ | .feeCollection jobId _ => jobId

def Commit.lines : Commit → List LedgerLine
  | .cycle _ lines | .feeCollection _ lines => lines

def Commit.cycleId : Commit → Option JobId
  | .cycle jobId _ => some jobId
  | .feeCollection _ _ => none

def Commit.rows (commit : Commit) : List LedgerRow :=
  commit.lines.map fun line =>
    { jobId := commit.jobId, cycleId := commit.cycleId, kind := line.kind, token := line.token, amount := line.amount
      feeTax := line.feeTax }

/-- A job commits once, and retention entries of nothing are not written. -/
structure CommitHistory where
  commits : List Commit
  once : (commits.map Commit.jobId).Nodup
  positive : ∀ commit ∈ commits, ∀ line ∈ commit.lines, line.kind = .incomeTax → line.amount ≠ some (.digits 0)

def CommitHistory.ledger (history : CommitHistory) : List LedgerRow :=
  history.commits.flatMap Commit.rows

def CommitHistory.feeCollections (history : CommitHistory) : List Commit :=
  history.commits.filter (·.cycleId = none)

def CommitHistory.cycles (history : CommitHistory) : List Commit :=
  history.commits.filter (·.cycleId ≠ none)

def CommitHistory.perJob (settlement : Address) (history : CommitHistory) : ℕ :=
  (history.commits.map fun commit => jobRetention settlement history.ledger commit.jobId).sum

variable {settlement : Address} {history : CommitHistory} {rows other : List LedgerRow}

variable {selects : LedgerRow → Bool}

theorem valueIn_perm (same : rows.Perm other) : valueIn selects rows = valueIn selects other :=
  ((same.filter _).map _).sum_eq

theorem bucketRetention_perm (same : rows.Perm other) : bucketRetention settlement rows = bucketRetention settlement other := by
  unfold bucketRetention explicitIn swapOutputIn
  rw [valueIn_perm same, valueIn_perm same]

theorem valueIn_flatMap {commits : List Commit} :
    valueIn selects (commits.flatMap Commit.rows) = (commits.map fun commit => valueIn selects commit.rows).sum := by
  unfold valueIn
  induction commits with
  | nil => rfl
  | cons first rest ih => rw [List.flatMap_cons, List.filter_append, List.map_append, List.sum_append, ih, List.map_cons, List.sum_cons]

theorem valueIn_filter {selects keeps : LedgerRow → Bool} (covers : ∀ row, selects row → keeps row) (rows : List LedgerRow) :
    valueIn selects (rows.filter keeps) = valueIn selects rows := by
  unfold valueIn
  rw [List.filter_filter]
  refine congrArg (fun rows => (rows.map LedgerRow.value).sum) (List.filter_congr fun row _ => ?_)
  cases chosen : selects row with
  | false => rfl
  | true => exact covers row chosen

theorem bucketRetention_counted (rows : List LedgerRow) :
    bucketRetention settlement (rows.filter (countsForRetention settlement)) = bucketRetention settlement rows := by
  have explicit : ∀ row, isSettlementIncomeTaxRow settlement row → countsForRetention settlement row := fun row chosen => by
    unfold isSettlementIncomeTaxRow at chosen
    unfold countsForRetention
    simp only [Bool.and_eq_true, decide_eq_true_eq] at chosen
    simp [chosen.1.1]
  have swapped : ∀ row, isFeeTaxSwapOutputRow settlement row → countsForRetention settlement row := fun row chosen => by
    unfold countsForRetention
    rw [chosen, Bool.or_true]
  unfold bucketRetention explicitIn swapOutputIn
  rw [valueIn_filter explicit, valueIn_filter swapped]

variable {commit : Commit}

theorem rows_jobId {row : LedgerRow} (member : row ∈ commit.rows) : row.jobId = commit.jobId := by
  obtain ⟨line, _, rfl⟩ := List.mem_map.mp member
  rfl

theorem rows_cycleId {row : LedgerRow} (member : row ∈ commit.rows) : row.cycleId = commit.cycleId := by
  obtain ⟨line, _, rfl⟩ := List.mem_map.mp member
  rfl

theorem cycleId_of_some {jobId : JobId} (own : commit.cycleId = some jobId) : commit.jobId = jobId := by
  cases commit with
  | cycle id lines => exact Option.some.inj own
  | feeCollection id lines => cases own

theorem filter_jobId {commits : List Commit} (once : (commits.map Commit.jobId).Nodup) (member : commit ∈ commits) :
    (commits.flatMap Commit.rows).filter (·.jobId = commit.jobId) = commit.rows := by
  induction commits with
  | nil => cases member
  | cons first rest ih =>
    obtain ⟨missing, later⟩ := List.nodup_cons.mp once
    rw [List.flatMap_cons, List.filter_append]
    rcases List.mem_cons.mp member with rfl | found
    · have own : commit.rows.filter (·.jobId = commit.jobId) = commit.rows :=
        List.filter_eq_self.mpr fun row inside => decide_eq_true (rows_jobId inside)
      have others : (rest.flatMap Commit.rows).filter (·.jobId = commit.jobId) = [] := by
        refine List.filter_eq_nil_iff.mpr fun row inside => ?_
        obtain ⟨other, present, held⟩ := List.mem_flatMap.mp inside
        rw [rows_jobId held, decide_eq_true_eq]
        exact fun same => missing (List.mem_map.mpr ⟨other, present, same⟩)
      rw [own, others, List.append_nil]
    · have others : first.rows.filter (·.jobId = commit.jobId) = [] := by
        refine List.filter_eq_nil_iff.mpr fun row inside => ?_
        rw [rows_jobId inside, decide_eq_true_eq]
        exact fun same => missing (List.mem_map.mpr ⟨commit, found, same.symm⟩)
      rw [others, List.nil_append, ih later found]

theorem filter_cycle (member : commit ∈ history.commits) {jobId : JobId} (own : commit.cycleId = some jobId) :
    history.ledger.filter (·.cycleId = some jobId) = commit.rows := by
  have same := cycleId_of_some own
  rw [← filter_jobId history.once member]
  refine List.filter_congr fun row inside => ?_
  obtain ⟨other, present, held⟩ := List.mem_flatMap.mp inside
  rw [rows_cycleId held, rows_jobId held, decide_eq_decide]
  constructor
  · exact fun cycle => (cycleId_of_some cycle).trans same.symm
  · intro again
    have equal : other = commit := List.inj_on_of_nodup_map history.once present member again
    rw [equal, own]

theorem filter_uncycled : history.ledger.filter (·.cycleId = none) = history.feeCollections.flatMap Commit.rows := by
  unfold CommitHistory.ledger CommitHistory.feeCollections
  induction history.commits with
  | nil => rfl
  | cons first rest ih =>
    rw [List.flatMap_cons, List.filter_append, ih, List.filter_cons]
    split
    · rename_i fee
      have own : first.rows.filter (·.cycleId = none) = first.rows :=
        List.filter_eq_self.mpr fun row inside => by rw [rows_cycleId inside]; exact fee
      rw [own, List.flatMap_cons]
    · rename_i cycled
      have none : first.rows.filter (·.cycleId = none) = [] :=
        List.filter_eq_nil_iff.mpr fun row inside => by rw [rows_cycleId inside]; exact cycled
      rw [none, List.nil_append]

theorem value_pos {line : LedgerLine} {jobId : JobId} {cycleId : Option JobId} (written : line.amount ≠ some (.digits 0))
    (digits : LedgerRow.hasDigits ⟨jobId, cycleId, line.kind, line.token, line.amount, line.feeTax⟩) :
    0 < LedgerRow.value ⟨jobId, cycleId, line.kind, line.token, line.amount, line.feeTax⟩ := by
  unfold LedgerRow.hasDigits at digits
  unfold LedgerRow.value
  dsimp only at digits ⊢
  cases amount : line.amount with
  | none => rw [amount] at digits; cases digits
  | some text =>
    cases text with
    | other => rw [amount] at digits; cases digits
    | digits value => exact Nat.pos_of_ne_zero fun zero => written (amount.trans (congrArg (some ∘ AmountText.digits) zero))

theorem explicit_pos (member : commit ∈ history.commits) :
    commit.rows.any (isSettlementIncomeTaxRow settlement) ↔ 0 < explicitIn settlement commit.rows := by
  unfold explicitIn valueIn
  rw [List.any_eq_true]
  constructor
  · rintro ⟨row, inside, own⟩
    obtain ⟨line, present, rfl⟩ := List.mem_map.mp inside
    have chosen := own
    unfold isSettlementIncomeTaxRow at chosen
    simp only [Bool.and_eq_true, decide_eq_true_eq] at chosen
    have value := value_pos (history.positive commit member line present chosen.1.1) chosen.1.2
    exact List.sum_pos_iff_exists_pos_nat.mpr ⟨_, List.mem_map_of_mem (List.mem_filter.mpr ⟨inside, own⟩), value⟩
  · intro positive
    obtain ⟨value, found, _⟩ := List.sum_pos_iff_exists_pos_nat.mp positive
    obtain ⟨row, chosen, _⟩ := List.mem_map.mp found
    exact ⟨row, (List.mem_filter.mp chosen).1, (List.mem_filter.mp chosen).2⟩

theorem jobRetention_eq (member : commit ∈ history.commits) :
    jobRetention settlement history.ledger commit.jobId = bucketRetention settlement commit.rows := by
  have own := filter_jobId history.once member
  unfold jobRetention bucketRetention
  dsimp only
  unfold CommitHistory.ledger
  rw [own]
  exact if_congr (explicit_pos member) rfl rfl

theorem shared_bucket (commits : List Commit) :
    let explicit := (commits.map fun commit => explicitIn settlement commit.rows).sum
    let retained := (commits.map fun commit => bucketRetention settlement commit.rows).sum
    explicit ≤ retained ∧ (explicit = retained ↔
      ∀ commit ∈ commits, explicitIn settlement commit.rows = 0 → swapOutputIn settlement commit.rows = 0) := by
  induction commits with
  | nil => simp
  | cons first rest ih =>
    obtain ⟨le, exact_iff⟩ := ih
    simp only [List.map_cons, List.sum_cons, List.forall_mem_cons]
    rw [← exact_iff]
    unfold bucketRetention at le ⊢
    by_cases positive : 0 < explicitIn settlement first.rows
    · rw [if_pos positive]
      omega
    · rw [if_neg positive]
      omega

theorem uncycled_value (read : rows.Perm history.ledger) :
    valueIn selects (rows.filter (·.cycleId = none)) = (history.feeCollections.map fun commit => valueIn selects commit.rows).sum := by
  rw [valueIn_perm (read.filter _), filter_uncycled, valueIn_flatMap]

theorem cycle_own (member : commit ∈ history.cycles) :
    commit ∈ history.commits ∧ commit.cycleId = some commit.jobId := by
  obtain ⟨present, cycled⟩ := List.mem_filter.mp member
  cases commit with
  | cycle jobId lines => exact ⟨present, rfl⟩
  | feeCollection jobId lines => simp [Commit.cycleId] at cycled

theorem ledger_keys {row : LedgerRow} (member : row ∈ history.ledger) :
    row.cycleId ∈ insert none (history.cycles.map fun commit => some commit.jobId).toFinset := by
  obtain ⟨commit, present, held⟩ := List.mem_flatMap.mp member
  rw [rows_cycleId held]
  cases commit with
  | feeCollection jobId lines => exact Finset.mem_insert_self _ _
  | cycle jobId lines =>
    refine Finset.mem_insert_of_mem (List.mem_toFinset.mpr (List.mem_map.mpr ⟨_, List.mem_filter.mpr ⟨present, ?_⟩, rfl⟩))
    simp [Commit.cycleId]

theorem cycles_once : (history.cycles.map fun commit => some commit.jobId).Nodup := by
  have distinct : (history.cycles.map Commit.jobId).Nodup := history.once.sublist ((List.filter_sublist).map _)
  rw [show (fun commit : Commit => some commit.jobId) = some ∘ Commit.jobId from rfl, ← List.map_map]
  exact distinct.map (Option.some_injective _)

theorem retained_eq (read : rows.Perm history.ledger) :
    retainedIncomeSettlementRaw settlement rows =
      bucketRetention settlement (rows.filter (·.cycleId = none)) +
        (history.cycles.map fun commit => jobRetention settlement history.ledger commit.jobId).sum := by
  have bucket : ∀ k, bucketRetention settlement ((rows.filter (countsForRetention settlement)).filter fun row => row.cycleId = k) =
      bucketRetention settlement (rows.filter fun row => row.cycleId = k) := fun k => by
    rw [List.filter_comm, bucketRetention_counted]
  have covers : ∀ row ∈ rows.filter (countsForRetention settlement),
      row.cycleId ∈ insert none (history.cycles.map fun commit => some commit.jobId).toFinset := fun row member =>
    ledger_keys (read.mem_iff.mp (List.mem_of_mem_filter member))
  have apart : none ∉ (history.cycles.map fun commit => some commit.jobId).toFinset := by simp
  unfold retainedIncomeSettlementRaw
  rw [sum_group rfl covers, Finset.sum_insert apart, List.sum_toFinset _ cycles_once, List.map_map, bucket]
  refine congrArg _ (congrArg List.sum (List.map_congr_left fun commit member => ?_))
  obtain ⟨present, own⟩ := cycle_own member
  rw [Function.comp_apply, bucket, bucketRetention_perm (read.filter _), filter_cycle present own, jobRetention_eq present]

theorem perJob_eq : history.perJob settlement =
    (history.feeCollections.map fun commit => bucketRetention settlement commit.rows).sum +
      (history.cycles.map fun commit => jobRetention settlement history.ledger commit.jobId).sum := by
  have split := (List.filter_append_perm (fun commit : Commit => decide (commit.cycleId = none)) history.commits).map
    fun commit => jobRetention settlement history.ledger commit.jobId
  unfold CommitHistory.perJob
  rw [← split.sum_eq, List.map_append, List.sum_append]
  refine congrArg₂ (· + ·) (congrArg List.sum (List.map_congr_left fun commit member => ?_)) ?_
  · exact jobRetention_eq (List.mem_of_mem_filter member)
  · unfold CommitHistory.cycles
    refine congrArg (fun commits => (List.map _ commits).sum) (List.filter_congr fun commit _ => ?_)
    simp

/-- Every cycle of a job is counted once. The rows without a cycle are one bucket more, so that the total never exceeds what
the jobs retained, and falls short of it exactly where explicit rows hide the swap output of a job that has none. -/
theorem retention_by_cycle (settlement : Address) (history : CommitHistory) {rows : List LedgerRow} (read : rows.Perm history.ledger) :
    retainedIncomeSettlementRaw settlement rows =
        bucketRetention settlement (rows.filter (·.cycleId = none)) +
          (history.cycles.map fun commit => jobRetention settlement history.ledger commit.jobId).sum ∧
      retainedIncomeSettlementRaw settlement rows ≤ history.perJob settlement ∧
      (retainedIncomeSettlementRaw settlement rows = history.perJob settlement ↔
        explicitIn settlement (rows.filter (·.cycleId = none)) = 0 ∨
          ∀ commit ∈ history.feeCollections, explicitIn settlement commit.rows = 0 → swapOutputIn settlement commit.rows = 0) := by
  refine ⟨retained_eq read, ?_⟩
  obtain ⟨le, exact_iff⟩ := @shared_bucket settlement history.feeCollections
  have explicit : explicitIn settlement (rows.filter (·.cycleId = none)) =
      (history.feeCollections.map fun commit => explicitIn settlement commit.rows).sum := uncycled_value read
  have swapped : swapOutputIn settlement (rows.filter (·.cycleId = none)) =
      (history.feeCollections.map fun commit => swapOutputIn settlement commit.rows).sum := uncycled_value read
  rw [retained_eq read, perJob_eq, bucketRetention, explicit, swapped, ← exact_iff]
  by_cases positive : 0 < (history.feeCollections.map fun commit => explicitIn settlement commit.rows).sum
  · rw [if_pos positive]
    omega
  · have fallback : ∀ commit ∈ history.feeCollections, bucketRetention settlement commit.rows = swapOutputIn settlement commit.rows := by
      intro commit member
      have bound := List.single_le_sum (fun _ _ => Nat.zero_le _) _
        (List.mem_map_of_mem (f := fun commit => explicitIn settlement commit.rows) member)
      exact if_neg (by omega)
    rw [if_neg positive, List.map_congr_left fallback]
    omega

def mixedFormats : CommitHistory where
  commits := [.cycle 1 [⟨.swapOut, some 5, some (.digits 30), true⟩],
    .cycle 2 [⟨.swapOut, some 5, some (.digits 12), true⟩, ⟨.incomeTax, some 5, some (.digits 14), true⟩],
    .feeCollection 3 [⟨.incomeTax, some 5, some (.digits 7), true⟩]]
  once := by decide
  positive := by decide

theorem retention_by_cycle_mixed :
    retainedIncomeSettlementRaw 5 mixedFormats.ledger = mixedFormats.perJob 5 ∧ mixedFormats.perJob 5 = 51 :=
  ⟨(retention_by_cycle 5 mixedFormats (List.Perm.refl _)).2.2.mpr (Or.inr (by decide)), by decide⟩

def sharedNull : CommitHistory where
  commits := [.feeCollection 1 [⟨.swapOut, some 5, some (.digits 30), true⟩],
    .feeCollection 2 [⟨.incomeTax, some 5, some (.digits 7), true⟩]]
  once := by decide
  positive := by decide

theorem retention_drops_legacy_collection :
    retainedIncomeSettlementRaw 5 sharedNull.ledger = 7 ∧ sharedNull.perJob 5 = 37 := by
  decide

end LpTerminal.Retention
