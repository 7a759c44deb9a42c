import LpTerminal.Fables.WalletJobs
import Mathlib.Data.Set.BooleanAlgebra
import Mathlib.Order.CompletePartialOrder

/-!
An ordinary and a Fables job never hold one wallet at the same time, as long as no attempt reopens a
closed job.
-/

namespace LpTerminal.WalletJobs

open Durable Fables Recovery Store Trace

def ordinaryWallets (store : WalletStore) : Set WalletId :=
  {walletId | ∃ row ∈ store.jobs.rows, row.status.isOpen ∧ store.walletOf row.strategyId = some walletId}

def fablesWallets (store : FablesStore) : Set WalletId :=
  {walletId | ∃ job ∈ store.jobs.rows, job.state.isOpen ∧ job.walletId = walletId}

def Exclusive (store : WalletStore) : Prop :=
  Disjoint (ordinaryWallets store) (fablesWallets store.fables)

inductive Change (store after : WalletStore) : Prop
  | closes (ordinary : ordinaryWallets after ⊆ ordinaryWallets store)
      (fables : fablesWallets after.fables ⊆ fablesWallets store.fables)
  | opensJob {walletId : WalletId} (free : walletId ∉ fablesWallets store.fables)
      (ordinary : ordinaryWallets after ⊆ insert walletId (ordinaryWallets store))
      (fables : fablesWallets after.fables ⊆ fablesWallets store.fables)
  | opensFables {walletId : WalletId} (free : walletId ∉ ordinaryWallets store)
      (ordinary : ordinaryWallets after ⊆ ordinaryWallets store)
      (fables : fablesWallets after.fables ⊆ insert walletId (fablesWallets store.fables))

variable {store start after : WalletStore} {W : Set WalletId} {α β : Type}

theorem Change.refl (store : WalletStore) : Change store store := .closes subset_rfl subset_rfl

theorem exclusive_change (exclusive : Exclusive store) (change : Change store after) : Exclusive after := by
  cases change with
  | closes ordinary fables => exact exclusive.mono ordinary fables
  | opensJob free ordinary fables =>
    exact (Set.disjoint_insert_left.mpr ⟨free, exclusive⟩).mono ordinary fables
  | opensFables free ordinary fables =>
    exact (Set.disjoint_insert_right.mpr ⟨free, exclusive⟩).mono ordinary fables

variable {walletId : WalletId}

theorem walletHasOpenJob_iff : walletHasOpenJob store walletId ↔ walletId ∈ ordinaryWallets store := by
  unfold walletHasOpenJob JobRow.ofWallet ordinaryWallets
  simp only [List.any_eq_true, Bool.and_eq_true, decide_eq_true_eq, Set.mem_ofPred_eq]
  exact exists_congr fun row => and_congr_right fun _ => and_comm

theorem walletHasOpenFablesJob_iff :
    walletHasOpenFablesJob store walletId ↔ walletId ∈ fablesWallets store.fables := by
  unfold walletHasOpenFablesJob fablesWallets
  simp only [List.any_eq_true, Bool.and_eq_true, decide_eq_true_eq, Set.mem_ofPred_eq]
  exact exists_congr fun job => and_congr_right fun _ => and_comm

theorem ordinaryWallets_put {row : JobRow} (held : row.status.isOpen → ∀ walletId, store.walletOf row.strategyId = some walletId → walletId ∈ W)
    (within : ordinaryWallets store ⊆ W) : ordinaryWallets { store with jobs := store.jobs.put row } ⊆ W := by
  rintro walletId ⟨other, member, opened, wallet⟩
  rcases Table.mem_put.mp member with rfl | ⟨old, _⟩
  · exact held opened walletId wallet
  · exact within ⟨other, old, opened, wallet⟩

variable {jobId : JobId} {status : JobStatus}

theorem ordinaryWallets_setStatus
    (held : status.isOpen → ∀ row, store.jobs.get? jobId = some row → ∀ walletId, store.walletOf row.strategyId = some walletId →
      walletId ∈ W)
    (within : ordinaryWallets store ⊆ W) : ordinaryWallets { store with jobs := setStatus store.jobs jobId status } ⊆ W := by
  rintro walletId ⟨other, member, opened, wallet⟩
  obtain ⟨row, old, rfl⟩ := List.mem_map.mp member
  by_cases own : row.id = jobId
  · subst own
    have read := Table.get?_of_mem old
    unfold JobRow.withStatus at opened wallet
    rw [if_pos rfl] at opened wallet
    exact held opened row read walletId wallet
  · unfold JobRow.withStatus at opened wallet
    rw [if_neg own] at opened wallet
    exact within ⟨row, old, opened, wallet⟩

def Changes (start : WalletStore) {ε : Type} (program : Durable ε WalletStore α) : Prop :=
  Triple (· = start) program (fun _ => Change start) (Change start)

section Changes

variable {ε : Type} {program : Durable ε WalletStore α}

theorem changes_pure (a : α) : Changes start (pure a : Durable ε WalletStore α) :=
  fun _ same => same ▸ Change.refl _

theorem changes_fail (e : ε) : Changes start (fail e : Durable ε WalletStore α) :=
  fun _ same => same ▸ Change.refl _

theorem changes_write {update : WalletStore → WalletStore} (change : Change start (update start)) :
    Changes start (write update : Durable ε WalletStore Unit) :=
  fun _ same => same ▸ change

theorem changes_read {next : WalletStore → Durable ε WalletStore α} (changes : Changes start (next start)) :
    Changes start (read >>= next) := by
  refine triple_bind (Q := fun told after => told = start ∧ after = start) (triple_read fun _ same => ⟨same, same⟩) fun told => ?_
  exact triple_assume fun here => here ▸ changes

theorem changes_reply {answer : Except ε β} {next : β → Durable ε WalletStore α} (changes : ∀ b, Changes start (next b)) :
    Changes start (reply answer >>= next) :=
  triple_bind (Q := fun _ after => after = start) (triple_reply (fun _ _ same _ => same) fun _ _ same _ => same ▸ Change.refl _) changes

theorem changes_atomically (changes : Changes start program) : Changes start (atomically program) := by
  refine triple_atomically fun s same => ?_
  subst same
  exact triple_weaken changes (fun _ here => here) (fun _ _ after => after) fun _ _ => Change.refl s

end Changes

theorem setJobState_changes
    (may : status.isOpen → ∀ row, start.jobs.get? jobId = some row →
      row.status.isOpen ∨ ∀ walletId, start.walletOf row.strategyId = some walletId → walletId ∉ fablesWallets start.fables) :
    Changes start (setJobState jobId status) := by
  refine triple_tryWrite (fun s s' same wrote => ?_) fun _ _ same _ => same ▸ Change.refl _
  subst same
  cases read : s.jobs.get? jobId with
  | none =>
    simp only [read] at wrote
    cases wrote
    exact Change.refl s
  | some row =>
    simp only [read] at wrote
    split at wrote
    · cases wrote
    · cases wrote
      by_cases opens : status.isOpen
      · rcases may opens row read with opened | free
        · refine .closes (ordinaryWallets_setStatus (fun _ other found walletId wallet => ?_) subset_rfl) subset_rfl
          cases read.symm.trans found
          exact ⟨row, Table.get?_mem read, opened, wallet⟩
        · cases wallet : s.walletOf row.strategyId with
          | none =>
            refine .closes (ordinaryWallets_setStatus (fun _ other found walletId held => ?_) subset_rfl) subset_rfl
            cases read.symm.trans found
            cases wallet.symm.trans held
          | some walletId =>
            refine .opensJob (free walletId wallet) (ordinaryWallets_setStatus (fun _ other found held own => ?_) (Set.subset_insert _ _))
              subset_rfl
            cases read.symm.trans found
            cases wallet.symm.trans own
            exact Set.mem_insert _ _
      · exact .closes (ordinaryWallets_setStatus (fun opened => absurd opened opens) subset_rfl) subset_rfl

theorem closeJob_changes (closed : ¬ status.isOpen) : Changes start (setJobState jobId status) :=
  setJobState_changes fun opened => absurd opened closed

variable {strategyId : StrategyId}

theorem insertJob_changes :
    Changes start (insertJob jobId strategyId status) := by
  refine changes_atomically (changes_read ?_)
  cases wallet : start.walletOf strategyId with
  | none => exact changes_fail _
  | some walletId =>
    dsimp only
    split
    · exact changes_fail _
    split
    · exact changes_fail _
    rename_i free
    split
    · exact changes_fail _
    refine changes_write (.opensJob (fun held => free (walletHasOpenFablesJob_iff.mpr held))
      (ordinaryWallets_put (fun _ other own => ?_) (Set.subset_insert _ _)) subset_rfl)
    cases wallet.symm.trans own
    exact Set.mem_insert _ _

theorem created_changes :
    Changes start (rescue refused do
      insertJob jobId strategyId status
      return true) :=
  triple_rescue (triple_bind (Q := fun _ => Change start) insertJob_changes fun _ => triple_pure fun _ change => change)
    fun _ _ change => change

theorem moveJob_changes {allowed : JobStatus → Bool} {refusal : ErrorCode}
    (closed : ¬ status.isOpen) : Changes start (moveJob jobId allowed status refusal) := by
  refine changes_atomically (changes_read ?_)
  split
  · exact changes_fail _
  · split
    · exact closeJob_changes closed
    · exact changes_fail _

theorem runJob_changes : Changes start (runJob jobId) := by
  refine changes_read ?_
  cases read : start.jobs.get? jobId with
  | none => exact changes_pure _
  | some row =>
    dsimp only
    split
    · rename_i planned
      refine setJobState_changes fun _ other found => Or.inl ?_
      cases read.symm.trans found
      rw [planned]
      rfl
    · exact changes_pure _

theorem commitJob_changes {rest : Except ErrorCode Unit} : Changes start (commitJob jobId rest) :=
  changes_atomically (changes_reply fun _ => closeJob_changes (by decide))

theorem archiveStrategy_changes {jobId : Option JobId} {rest : Except ErrorCode Unit} :
    Changes start (archiveStrategy strategyId jobId rest) := by
  refine changes_atomically (changes_read ?_)
  cases jobId with
  | none => exact triple_reply (fun _ _ same _ => same ▸ Change.refl _) fun _ _ same _ => same ▸ Change.refl _
  | some jobId =>
    dsimp only
    split
    · exact changes_fail _
    · split
      · exact triple_bind (Q := fun _ => Change start) (closeJob_changes (by decide)) fun _ =>
          triple_reply (fun _ _ change _ => change) fun _ _ change _ => change
      · exact changes_fail _

theorem quarantine_changes : Changes start quarantineInterruptedJobs := by
  refine changes_write (.closes ?_ subset_rfl)
  rintro walletId ⟨other, member, opened, wallet⟩
  obtain ⟨row, old, rfl⟩ := List.mem_map.mp member
  unfold JobRow.interrupt at opened wallet
  split at wallet
  · rename_i running
    exact ⟨row, old, by rw [running]; rfl, wallet⟩
  · rename_i other
    rw [if_neg other] at opened
    exact ⟨row, old, opened, wallet⟩

section FablesJobs

variable {fables : FablesStore}

theorem fablesWallets_putJob {job : FablesJob} (held : job.state.isOpen → job.walletId ∈ W) (within : fablesWallets fables ⊆ W) :
    fablesWallets (fables.putJob job) ⊆ W := by
  rintro walletId ⟨other, member, opened, wallet⟩
  rcases Table.mem_put.mp member with rfl | ⟨old, _⟩
  · exact wallet ▸ held opened
  · exact within ⟨other, old, opened, wallet⟩

@[simp] theorem fablesWallets_markStrategy (id : StrategyId) (state : FablesStrategyState) :
    fablesWallets (FablesStore.markStrategy id state fables) = fablesWallets fables := by
  unfold FablesStore.markStrategy
  split <;> rfl

def OpensNone (program : FablesProgram α) : Prop :=
  ∀ W : Set WalletId, Keeps (fun fables => fablesWallets fables ⊆ W) program

theorem opensNone_read {next : FablesStore → FablesProgram α}
    (each : ∀ (W : Set WalletId) (told : FablesStore), fablesWallets told ⊆ W →
      Triple (· = told) (next told) (fun _ after => fablesWallets after ⊆ W) (fun after => fablesWallets after ⊆ W)) :
    OpensNone (read >>= next) := by
  intro W
  refine triple_each fun s within => ?_
  refine triple_bind (Q := fun told after => told = s ∧ after = s) (triple_read fun _ same => ⟨same, same⟩) fun told => ?_
  exact triple_assume fun here => here ▸ each W s within

theorem opensNone_write {update : FablesStore → FablesStore}
    (within : ∀ (W : Set WalletId) (s : FablesStore), fablesWallets s ⊆ W → fablesWallets (update s) ⊆ W) :
    OpensNone (write update) :=
  fun W => keeps_write (within W)

theorem triple_stop {program : FablesProgram α} {told : FablesStore} (kept : Keeps (fun fables => fablesWallets fables ⊆ W) program)
    (within : fablesWallets told ⊆ W) :
    Triple (· = told) program (fun _ after => fablesWallets after ⊆ W) (fun after => fablesWallets after ⊆ W) :=
  triple_weaken kept (fun _ same => same ▸ within) (fun _ _ after => after) fun _ after => after

variable {id : JobId}

theorem putJob_within {told : FablesStore} {row job : FablesJob} (read : told.jobs.get? id = some row)
    (opened : row.state.isOpen) (same : job.walletId = row.walletId) (within : fablesWallets told ⊆ W) :
    fablesWallets (told.putJob job) ⊆ W :=
  fablesWallets_putJob (fun _ => same ▸ within ⟨row, Table.get?_mem read, opened, rfl⟩) within

theorem isOpen_of_not_closed {state : JobStatus} (notClosed : ¬ (state = .completed ∨ state = .failed ∨ state = .cancelled)) :
    state.isOpen := by
  cases state <;> simp_all [JobStatus.isOpen]

theorem setFablesJobProgress_opensNone {args : Progress} : OpensNone (setFablesJobProgress id args) := by
  refine opensNone_read fun W told within => ?_
  cases read : told.jobs.get? id with
  | none => exact triple_stop (keeps_fail _) within
  | some row =>
    dsimp only
    split
    · exact triple_stop (keeps_fail _) within
    rename_i notClosed
    have opened := isOpen_of_not_closed notClosed
    refine triple_bind (Q := fun _ after => fablesWallets after ⊆ W) (triple_write fun s same => ?_) fun _ => ?_
    · rw [same]
      exact putJob_within read opened rfl within
    · have marked : ∀ state, Keeps (fun fables => fablesWallets fables ⊆ W)
          (write (FablesStore.markStrategy row.strategyId state) : FablesProgram Unit) := fun state =>
        keeps_write fun s inside => by rw [fablesWallets_markStrategy]; exact inside
      split
      · exact marked _
      split
      · exact marked _
      · exact keeps_pure _

theorem quarantineFables_opensNone : OpensNone quarantineInterruptedFablesJobs := by
  refine opensNone_write fun W s within => ?_
  have folded : ∀ (rows : List FablesJob) (after : FablesStore), (∀ row ∈ rows, row.walletId ∈ W) → fablesWallets after ⊆ W →
      fablesWallets (rows.foldl (fun after row => FablesStore.markStrategy row.strategyId .recovery
        (after.putJob { row with state := .recovery, errorCode := some .interrupted })) after) ⊆ W := by
    intro rows
    induction rows with
    | nil => exact fun _ _ inside => inside
    | cons row rest ih =>
      intro after held inside
      obtain ⟨own, later⟩ := List.forall_mem_cons.mp held
      refine ih _ later ?_
      rw [fablesWallets_markStrategy]
      exact fablesWallets_putJob (fun _ => own) inside
  refine folded _ _ (fun row member => ?_) within
  obtain ⟨old, running⟩ := List.mem_filter.mp member
  exact within ⟨row, old, by rw [of_decide_eq_true running]; rfl, rfl⟩

theorem resumeFablesJob_opensNone : OpensNone (resumeFablesJob id) := by
  refine opensNone_read fun W told within => ?_
  cases read : told.jobs.get? id with
  | none => exact triple_stop (keeps_fail _) within
  | some job =>
    dsimp only
    split
    · exact triple_stop (keeps_fail _) within
    rename_i state
    split
    · exact triple_stop (keeps_fail _) within
    refine triple_write fun s same => ?_
    subst same
    rw [fablesWallets_markStrategy]
    refine fablesWallets_putJob (fun _ => ?_) within
    exact within ⟨job, Table.get?_mem read, by rw [not_not.mp state]; rfl, rfl⟩

theorem failFablesJobBeforeMutation_opensNone {code : FablesError} :
    OpensNone (failFablesJobBeforeMutation id code) := by
  refine opensNone_read fun W told within => ?_
  cases read : told.jobs.get? id with
  | none => exact triple_stop (keeps_fail _) within
  | some job =>
    dsimp only
    split
    · exact triple_stop (keeps_fail _) within
    rename_i opened
    split
    · exact triple_stop (keeps_fail _) within
    refine triple_write fun s same => ?_
    subst same
    rw [fablesWallets_markStrategy]
    exact putJob_within read (not_not.mp opened) rfl within

theorem cancelFablesJobBackInRange_opensNone : OpensNone (cancelFablesJobBackInRange id) := by
  refine opensNone_read fun W told within => ?_
  cases read : told.jobs.get? id with
  | none => exact triple_stop (keeps_fail _) within
  | some job =>
    dsimp only
    split
    · exact triple_stop (keeps_fail _) within
    rename_i opened
    split
    · exact triple_stop (keeps_fail _) within
    refine triple_write fun s same => ?_
    subst same
    rw [fablesWallets_markStrategy]
    exact putJob_within read (not_not.mp (not_or.mp opened).1) rfl within

theorem recordFablesTxIntent_opensNone {intent : TxIntent} : OpensNone (recordFablesTxIntent intent) := by
  refine opensNone_read fun W told within => triple_stop ?_ within
  split
  · exact keeps_fail _
  split
  · exact keeps_fail _
  split
  · exact keeps_fail _
  split
  · exact keeps_fail _
  split
  · exact keeps_fail _
  · exact keeps_write fun _ inside => inside

theorem updateFablesTx_opensNone {ordinal : Nat} {state : FablesTxState} {facts : Option FablesReceiptFacts}
    {errorCode : Option FablesError} : OpensNone (updateFablesTx id ordinal state facts errorCode) := by
  refine opensNone_read fun W told within => triple_stop ?_ within
  split
  · exact keeps_fail _
  · exact keeps_write fun _ inside => inside

theorem completeFablesJob_opensNone {newRef : FablesPositionRef} {facts : List FablesCycleFact}
    {parsed rest : Except FablesError Unit} : OpensNone (completeFablesJob id newRef facts parsed rest) := by
  refine opensNone_read fun W told within => ?_
  split
  · exact triple_stop (keeps_fail _) within
  split
  · exact triple_stop (keeps_fail _) within
  split
  · exact triple_stop (keeps_fail _) within
  refine triple_stop (keeps_atomically ?_) within
  refine triple_weaken (keeps_bind keeps_read fun store => ?_) (fun _ here => here) (fun _ _ here => here) fun _ _ => trivial
  split
  · exact keeps_fail _
  dsimp only
  split
  · exact keeps_fail _
  refine keeps_bind (keeps_reply _) fun _ => ?_
  refine keeps_bind (keeps_write fun s inside => fablesWallets_putJob (fun opened => ?_) inside) fun _ => ?_
  · cases opened
  · exact keeps_bind (keeps_reply _) fun _ => keeps_pure _

theorem onFables_changes {program : FablesProgram α} (opensNone : OpensNone program) : Changes start (onFables program) := by
  refine triple_within fun t same => ?_
  subst same
  refine triple_weaken (opensNone (fablesWallets t.fables)) (fun s here => by rw [here]) (fun _ s inside => ?_) fun s inside => ?_
  · exact .closes subset_rfl inside
  · exact .closes subset_rfl inside

theorem createFablesJob_changes {config : FablesConfig} : Changes start (createFablesJob config id) := by
  unfold createFablesJob
  split
  · exact changes_fail _
  split
  · exact changes_fail _
  rename_i walletId _
  refine changes_read ?_
  split
  · exact changes_fail _
  refine changes_atomically (changes_read ?_)
  split
  · exact changes_fail _
  split
  · exact changes_fail _
  split
  · exact changes_fail _
  split
  · exact changes_fail _
  rename_i free
  split
  · exact changes_fail _
  split
  · exact changes_fail _
  refine changes_write (.opensFables (fun held => free (walletHasOpenJob_iff.mpr held)) subset_rfl ?_)
  dsimp only
  rw [fablesWallets_markStrategy]
  exact fablesWallets_putJob (fun _ => Set.mem_insert _ _) (Set.subset_insert _ _)

end FablesJobs

def resumes : RecoveryDisposition → Bool
  | .resumeCollect | .resumeFromWallet | .resumeStakingExit | .resumeRevoke | .commitReady => true
  | .restartSafe | .waitPending | .manualReview => false

def reopens (store : WalletStore) : Call → Option JobId
  | .attemptFailed jobId => some jobId
  | .failProfitWithdrawalJob jobId mutated => if store.unfinished jobId || mutated then some jobId else none
  | .executeRecoveryLocked jobId disposition =>
    if (recoveryJobById store jobId).isSome && resumes disposition then some jobId else none
  | _ => none

def reopensBesideFables (store : WalletStore) (call : Call) : Bool :=
  match (reopens store call).bind store.jobs.get? with
  | none => false
  | some row => !row.status.isOpen && (store.walletOf row.strategyId).any (walletHasOpenFablesJob store)

theorem reopened_may {call : Call} (apart : reopensBesideFables start call = false)
    (target : reopens start call = some jobId) {row : JobRow} (read : start.jobs.get? jobId = some row) :
    row.status.isOpen ∨ ∀ walletId, start.walletOf row.strategyId = some walletId → walletId ∉ fablesWallets start.fables := by
  unfold reopensBesideFables at apart
  rw [target, Option.bind_some, read] at apart
  dsimp only at apart
  rcases Bool.and_eq_false_iff.mp apart with opened | free
  · exact Or.inl (by simpa using opened)
  · refine Or.inr fun walletId wallet held => ?_
    rw [wallet, Option.any_some, walletHasOpenFablesJob_iff.mpr held] at free
    cases free

theorem executeRecoveryLocked_changes {disposition : RecoveryDisposition}
    (apart : reopensBesideFables start (.executeRecoveryLocked jobId disposition) = false) :
    Changes start (executeRecoveryLocked jobId disposition) := by
  refine changes_read ?_
  cases found : recoveryJobById start jobId with
  | none => exact changes_pure _
  | some job =>
    have target : resumes disposition → reopens start (.executeRecoveryLocked jobId disposition) = some jobId := fun resumed => by
      simp only [reopens, found, Option.isSome_some, resumed, Bool.and_self, if_true]
    dsimp only
    cases disposition with
    | manualReview => exact changes_fail _
    | waitPending => exact changes_fail _
    | restartSafe => exact moveJob_changes (by decide)
    | resumeCollect => exact setJobState_changes fun _ _ read => reopened_may apart (target rfl) read
    | resumeFromWallet => exact setJobState_changes fun _ _ read => reopened_may apart (target rfl) read
    | resumeStakingExit => exact setJobState_changes fun _ _ read => reopened_may apart (target rfl) read
    | resumeRevoke => exact setJobState_changes fun _ _ read => reopened_may apart (target rfl) read
    | commitReady => exact setJobState_changes fun _ _ read => reopened_may apart (target rfl) read

theorem failProfitWithdrawalJob_changes {mutated : Bool}
    (apart : reopensBesideFables start (.failProfitWithdrawalJob jobId mutated) = false) :
    Changes start (failProfitWithdrawalJob jobId mutated) := by
  refine changes_read (setJobState_changes fun opened row read => ?_)
  refine reopened_may apart ?_ read
  unfold reopens
  dsimp only
  split
  · rfl
  · rename_i settled
    rw [if_neg settled] at opened
    cases opened

theorem call_changes {call : Call} (apart : reopensBesideFables start call = false) : Change start (afterCall start call) := by
  cases call with
  | createPlannedJob jobId strategyId => exact left_keeps created_changes rfl
  | createProfitWithdrawalJob jobId strategyId => exact left_keeps created_changes rfl
  | runJob jobId => exact left_keeps runJob_changes rfl
  | confirmDryRun jobId => exact left_keeps (closeJob_changes (by decide)) rfl
  | commitJob jobId rest => exact left_keeps commitJob_changes rfl
  | attemptFailed jobId => exact left_keeps (setJobState_changes fun _ _ read => reopened_may apart rfl read) rfl
  | abandonRecoveryJob jobId => exact left_keeps (moveJob_changes (by decide)) rfl
  | executeRecoveryLocked jobId disposition => exact left_keeps (executeRecoveryLocked_changes apart) rfl
  | completeProfitWithdrawalJob jobId => exact left_keeps (moveJob_changes (by decide)) rfl
  | abandonProfitWithdrawalJob jobId => exact left_keeps (moveJob_changes (by decide)) rfl
  | failProfitWithdrawalJob jobId mutated => exact left_keeps (failProfitWithdrawalJob_changes apart) rfl
  | archiveStrategy strategyId jobId rest => exact left_keeps archiveStrategy_changes rfl
  | quarantineInterruptedJobs => exact left_keeps quarantine_changes rfl
  | noteTransactions jobId unfinished => exact left_keeps (changes_write (.closes subset_rfl subset_rfl)) rfl
  | createFablesJob config id => exact left_keeps createFablesJob_changes rfl
  | updateFablesMonitorState id state =>
    exact left_keeps (onFables_changes (opensNone_write fun W s within => by rw [fablesWallets_markStrategy]; exact within)) rfl
  | setFablesJobProgress id args => exact left_keeps (onFables_changes setFablesJobProgress_opensNone) rfl
  | quarantineInterruptedFablesJobs => exact left_keeps (onFables_changes quarantineFables_opensNone) rfl
  | recordFablesTxIntent intent => exact left_keeps (onFables_changes recordFablesTxIntent_opensNone) rfl
  | updateFablesTx id ordinal state facts errorCode => exact left_keeps (onFables_changes updateFablesTx_opensNone) rfl
  | resumeFablesJob id => exact left_keeps (onFables_changes resumeFablesJob_opensNone) rfl
  | failFablesJobBeforeMutation id code => exact left_keeps (onFables_changes failFablesJobBeforeMutation_opensNone) rfl
  | cancelFablesJobBackInRange id => exact left_keeps (onFables_changes cancelFablesJobBackInRange_opensNone) rfl
  | completeFablesJob id newRef facts parsed rest => exact left_keeps (onFables_changes completeFablesJob_opensNone) rfl

theorem setJobState_opens {row : JobRow} (exclusive : Exclusive store)
    (opens : status.isOpen) (read : store.jobs.get? jobId = some row) (wallet : store.walletOf row.strategyId = some walletId)
    (held : walletId ∈ fablesWallets store.fables) : ¬ Exclusive (left (setJobState jobId status) store) := by
  have alone : anotherOpenJob store jobId row.strategyId = false := by
    refine Bool.eq_false_iff.mpr fun another => ?_
    obtain ⟨other, member, found⟩ := List.any_eq_true.mp another
    simp only [Bool.and_eq_true, decide_eq_true_eq] at found
    exact Set.disjoint_left.mp exclusive ⟨other, member, found.1.2, by rw [found.1.1]; exact wallet⟩ held
  have wrote : left (setJobState jobId status) store = { store with jobs := setStatus store.jobs jobId status } := by
    unfold left setJobState tryWrite
    simp only [read, alone, Bool.and_false, Bool.false_eq_true, if_false]
  have key : row.id = jobId := Table.get?_key read
  rw [wrote]
  intro shared
  refine Set.disjoint_left.mp shared ⟨row.withStatus jobId status, List.mem_map_of_mem (Table.get?_mem read), ?_, ?_⟩ held
  · unfold JobRow.withStatus
    rw [if_pos key]
    exact opens
  · rw [withStatus_strategyId]
    exact wallet

theorem executeRecoveryLocked_resumes {disposition : RecoveryDisposition}
    (accepted : (recoveryJobById store jobId).isSome) (resumed : resumes disposition) :
    left (executeRecoveryLocked jobId disposition) store = left (setJobState jobId .running) store := by
  obtain ⟨job, read⟩ := Option.isSome_iff_exists.mp accepted
  unfold executeRecoveryLocked left
  rw [bind_run, run_read]
  simp only [read]
  cases disposition with
  | restartSafe | waitPending | manualReview => cases resumed
  | resumeCollect | resumeFromWallet | resumeStakingExit | resumeRevoke | commitReady => rfl

theorem reopening_breaks {call : Call} (exclusive : Exclusive store) (reopening : reopensBesideFables store call = true) :
    ¬ Exclusive (afterCall store call) := by
  unfold reopensBesideFables at reopening
  split at reopening
  · cases reopening
  rename_i row found
  obtain ⟨jobId, target, read⟩ := Option.bind_eq_some_iff.mp found
  obtain ⟨walletId, wallet, open_fables⟩ := (Option.any_eq_true _ _).mp (Bool.and_eq_true_iff.mp reopening).2
  have held := walletHasOpenFablesJob_iff.mp open_fables
  cases call with
  | attemptFailed id =>
    cases target
    exact setJobState_opens exclusive rfl read wallet held
  | failProfitWithdrawalJob id mutated =>
    unfold reopens at target
    dsimp only at target
    split at target
    · rename_i locked
      cases target
      have ran : afterCall store (.failProfitWithdrawalJob jobId mutated) = left (setJobState jobId .recovery) store := by
        change left (setJobState jobId (if store.unfinished jobId || mutated then .recovery else .failed)) store = _
        rw [if_pos locked]
      rw [ran]
      exact setJobState_opens exclusive rfl read wallet held
    · cases target
  | executeRecoveryLocked id disposition =>
    unfold reopens at target
    dsimp only at target
    split at target
    · rename_i resumed
      cases target
      obtain ⟨accepted, resumed⟩ := Bool.and_eq_true_iff.mp resumed
      have ran : afterCall store (.executeRecoveryLocked jobId disposition) = left (setJobState jobId .running) store :=
        executeRecoveryLocked_resumes accepted resumed
      rw [ran]
      exact setJobState_opens exclusive rfl read wallet held
    · cases target
  | _ => cases target

theorem exclusive_iff : Exclusive store ↔ ∀ walletId, ¬ (walletHasOpenJob store walletId ∧ walletHasOpenFablesJob store walletId) := by
  unfold Exclusive
  rw [Set.disjoint_left]
  refine forall_congr' fun walletId => ?_
  rw [walletHasOpenJob_iff, walletHasOpenFablesJob_iff, not_and]

theorem exclusive_run_iff (exclusive : Exclusive store) (calls : List Call) :
    (∀ n, Exclusive (run afterCall store (calls.take n))) ↔
      Along afterCall (fun store call => reopensBesideFables store call = false) store calls := by
  induction calls generalizing store with
  | nil => simpa [Along] using exclusive
  | cons call rest ih =>
    constructor
    · intro every
      have next : Exclusive (afterCall store call) := every 1
      refine ⟨Bool.eq_false_iff.mpr fun reopening => reopening_breaks exclusive reopening next, (ih next).mp fun n => every (n + 1)⟩
    · rintro ⟨apart, later⟩ n
      have next := exclusive_change exclusive (call_changes apart)
      cases n with
      | zero => exact exclusive
      | succ n => exact (ih next).mpr later n

/-- An ordinary and a Fables job are never open together for one wallet, in any state of a run, exactly when no
call of the run reopens a closed job beside an open Fables job of its wallet. -/
theorem wallet_exclusion_iff {store : WalletStore} (calls : List Call)
    (start : ∀ walletId, ¬ (walletHasOpenJob store walletId ∧ walletHasOpenFablesJob store walletId)) :
    (∀ n walletId, ¬ (walletHasOpenJob (run afterCall store (calls.take n)) walletId ∧
        walletHasOpenFablesJob (run afterCall store (calls.take n)) walletId)) ↔
      Along afterCall (fun store call => reopensBesideFables store call = false) store calls := by
  rw [← exclusive_run_iff (exclusive_iff.mpr start) calls]
  exact forall_congr' fun n => exclusive_iff.symm

def sharedConfig : FablesConfig where
  id := 3
  owner := 77
  enabled := true
  executorAuto := true
  walletId := some 9
  signerAddress := some 77
  positionRef := ⟨500, 600, 700, -10, 10⟩
  revision := 1
  settings := 0

def sharedWallet : WalletStore where
  walletOf strategyId := if strategyId = 1 then some 9 else none
  addressOf walletId := if walletId = 9 then some 77 else none
  jobs := Table.empty
  unfinished _ := false
  fables := ⟨Table.empty.put ⟨sharedConfig, .dryRunReady⟩, Table.empty, Table.empty, []⟩

def waitsItsTurn : List Call :=
  [.createPlannedJob 1 1, .createFablesJob sharedConfig 2, .runJob 1, .attemptFailed 1, .executeRecoveryLocked 1 .resumeFromWallet,
    .createFablesJob sharedConfig 3, .commitJob 1 (.ok ()), .createFablesJob sharedConfig 4, .createPlannedJob 5 1]

theorem wallet_exclusion_iff_waits :
    walletHasOpenFablesJob (run afterCall sharedWallet waitsItsTurn) 9 = true ∧
      ∀ n walletId, ¬ (walletHasOpenJob (run afterCall sharedWallet (waitsItsTurn.take n)) walletId ∧
        walletHasOpenFablesJob (run afterCall sharedWallet (waitsItsTurn.take n)) walletId) :=
  ⟨by decide, (wallet_exclusion_iff waitsItsTurn (by simp [walletHasOpenJob, sharedWallet, Table.empty])).mpr (by decide)⟩

/-- A job is abandoned and the Fables job takes the wallet. A recovery that was already asked for finds the
failed job and runs it. -/
theorem wallet_shared_after_abandon :
    let calls : List Call := [.createPlannedJob 1 1, .runJob 1, .attemptFailed 1, .executeRecoveryLocked 1 .restartSafe,
      .createFablesJob sharedConfig 2, .executeRecoveryLocked 1 .resumeFromWallet]
    walletHasOpenJob (run afterCall sharedWallet calls) 9 = true ∧ walletHasOpenFablesJob (run afterCall sharedWallet calls) 9 = true := by
  decide

end LpTerminal.WalletJobs
