import LpTerminal.Fables.Cycle
import LpTerminal.Fables.JournalRun

/-!
The part of the store that the accounting of a cycle reads, and the programs that leave it alone.
-/

variable {store : FablesStore}

namespace LpTerminal.Fables

open Durable Store

def view (store : FablesStore) : Table FablesJobTx.key × (JobId → Option (FablesJobStage × FablesJobContext)) :=
  (store.transactions, fun id => (store.jobs.get? id).map fun job => (job.stage, job.context))

def Quiet {α : Type} (program : FablesProgram α) : Prop :=
  ∀ v, Keeps (fun store => view store = v) program

variable {env : SignerEnv} {chain : Hash → FablesReceipt} {α β : Type}

theorem quiet_pure (a : α) : Quiet (pure a : FablesProgram α) := fun _ => keeps_pure a

theorem quiet_fail (e : FablesError) : Quiet (fail e : FablesProgram α) := fun _ => keeps_fail e

theorem quiet_reply (answer : Except FablesError α) : Quiet (reply answer : FablesProgram α) := fun _ => keeps_reply answer

variable {program : FablesProgram α}

theorem quiet_bind {next : α → FablesProgram β} (first : Quiet program) (rest : ∀ a, Quiet (next a)) :
    Quiet (program >>= next) :=
  fun v => keeps_bind (first v) fun a => rest a v

theorem keeps_view_read {v} {next : FablesStore → FablesProgram α}
    (rest : ∀ told, view told = v → Keeps (fun store => view store = v) (next told)) : Keeps (fun store => view store = v) (read >>= next) := by
  refine triple_bind (Q := fun told after => view told = v ∧ view after = v) (triple_read fun _ same => ⟨same, same⟩) fun told => ?_
  exact fun store here => rest told here.1 store here.2

variable {job : FablesJob}

theorem view_putJob {v} (same : view store = v) (kept : v.2 job.id = some (job.stage, job.context)) :
    view (store.putJob job) = v := by
  rw [← same] at kept ⊢
  unfold view FablesStore.putJob
  refine Prod.ext rfl (funext fun id => ?_)
  by_cases own : id = job.id
  · subst own
    exact (congrArg (Option.map _) (Table.get?_put_same store.jobs job)).trans kept.symm
  · exact congrArg (Option.map _) (Table.get?_put_other own)

theorem view_markStrategy (id : StrategyId) (state : FablesStrategyState) :
    view (FablesStore.markStrategy id state store) = view store := by
  unfold FablesStore.markStrategy
  split <;> rfl

theorem view_job {id : JobId} (read : store.jobs.get? id = some job) :
    (view store).2 job.id = some (job.stage, job.context) := by
  have own : job.id = id := Table.get?_key read
  change (store.jobs.get? job.id).map _ = _
  rw [own, read]
  rfl

theorem setFablesJobProgress_quiet {id : JobId} {args : Progress} (stage : args.stage = none) (context : args.context = none) :
    Quiet (setFablesJobProgress id args) := by
  refine fun v => keeps_view_read fun told here => ?_
  cases read : told.jobs.get? id with
  | none => exact keeps_fail _
  | some row =>
    dsimp only
    split
    · exact keeps_fail _
    have kept := view_job read
    rw [here] at kept
    rw [stage, context]
    refine keeps_bind (keeps_write fun store same => view_putJob same kept) fun _ => ?_
    split
    · exact keeps_write fun store same => (view_markStrategy _ _).trans same
    split
    · exact keeps_write fun store same => (view_markStrategy _ _).trans same
    · exact keeps_pure _

theorem toRecovery_quiet {id : JobId} {errorCode thrown : FablesError} : Quiet (toRecovery id errorCode thrown) :=
  quiet_bind (setFablesJobProgress_quiet rfl rfl) fun _ => quiet_fail _

theorem quarantine_view (store : FablesStore) : view (left quarantineInterruptedFablesJobs store) = view store := by
  have folded : ∀ (jobs : List FablesJob) (middle : FablesStore),
      (∀ job ∈ jobs, (view store).2 job.id = some (job.stage, job.context)) → view middle = view store →
      view (jobs.foldl (fun after row => FablesStore.markStrategy row.strategyId .recovery
        (after.putJob { row with state := .recovery, errorCode := some .interrupted })) middle) = view store := by
    intro jobs
    induction jobs with
    | nil => exact fun _ _ same => same
    | cons job rest ih =>
      intro middle known same
      obtain ⟨own, later⟩ := List.forall_mem_cons.mp known
      refine ih _ later ((view_markStrategy _ _).trans ?_)
      exact @view_putJob middle { job with state := .recovery, errorCode := some .interrupted } _ same own
  exact folded _ store (fun job member => view_job (Table.get?_of_mem (List.mem_of_mem_filter member))) rfl

theorem failFablesJobBeforeMutation_quiet {id : JobId} {code : FablesError} : Quiet (failFablesJobBeforeMutation id code) := by
  refine fun v => keeps_view_read fun told here => ?_
  cases read : told.jobs.get? id with
  | none => exact keeps_fail _
  | some job =>
    dsimp only
    split
    · exact keeps_fail _
    split
    · exact keeps_fail _
    have kept := view_job read
    rw [here] at kept
    exact keeps_write fun store same => (view_markStrategy _ _).trans
      (@view_putJob store { job with state := .failed, errorCode := some code } v same kept)

theorem cancelFablesJobBackInRange_quiet {id : JobId} : Quiet (cancelFablesJobBackInRange id) := by
  refine fun v => keeps_view_read fun told here => ?_
  cases read : told.jobs.get? id with
  | none => exact keeps_fail _
  | some job =>
    dsimp only
    split
    · exact keeps_fail _
    split
    · exact keeps_fail _
    have kept := view_job read
    rw [here] at kept
    exact keeps_write fun store same => (view_markStrategy _ _).trans
      (@view_putJob store { job with state := .cancelled, errorCode := some .backInRange } v same kept)

theorem fablesAttention_quiet {id : JobId} {code : FablesError} : Quiet (fablesAttention id code) := by
  refine fun v => keeps_view_read fun told _ => ?_
  split
  · exact keeps_pure _
  split
  · exact keeps_pure _
  refine keeps_bind (triple_rescue (keeps_bind ?_ fun _ => keeps_pure _) fun _ _ kept => kept) fun done => ?_
  · split
    · exact cancelFablesJobBackInRange_quiet v
    split
    · exact failFablesJobBeforeMutation_quiet v
    · exact setFablesJobProgress_quiet rfl rfl v
  · split
    · exact keeps_pure _
    · exact setFablesJobProgress_quiet rfl rfl v

theorem appendFablesLedger_quiet {entry : FablesLedgerEntry} : Quiet (appendFablesLedger entry) :=
  fun _ => keeps_write fun _ same => same

theorem rebuildGas_quiet {alive : Nat → Except FablesError Unit} {txs : List FablesJobTx} :
    Quiet (rebuildGas job alive txs) := by
  induction txs with
  | nil => exact quiet_pure _
  | cons tx rest ih =>
    unfold rebuildGas
    refine quiet_bind (quiet_reply _) fun _ => ?_
    split
    · exact ih
    split
    · exact quiet_fail _
    · exact quiet_bind appendFablesLedger_quiet fun _ => ih

theorem reconciled_quiet {unresolved : Nat} {alive : Nat → Except FablesError Unit} :
    Quiet (reconciled job unresolved alive) := by
  refine fun v => keeps_view_read fun _ _ => keeps_bind (rebuildGas_quiet v) fun _ => keeps_view_read fun _ _ => ?_
  split
  · split
    · split
      · exact keeps_bind (setFablesJobProgress_quiet rfl rfl v) fun _ => keeps_pure _
      · exact keeps_pure _
    · exact keeps_pure _
  split
  · exact keeps_bind (setFablesJobProgress_quiet rfl rfl v) fun _ => keeps_pure _
  split
  · exact keeps_pure _
  split
  · exact keeps_bind (setFablesJobProgress_quiet rfl rfl v) fun _ => keeps_pure _
  · exact keeps_pure _

theorem rebroadcastChecks_quiet {id : JobId} {ordinal : Nat} : Quiet (rebroadcastChecks env id ordinal) := by
  refine fun v => keeps_view_read fun _ _ => ?_
  split
  · exact keeps_fail _
  split
  · exact keeps_fail _
  split
  · exact keeps_fail _
  split
  · exact keeps_fail _
  split
  · exact keeps_fail _
  split
  · exact keeps_fail _
  split
  · exact keeps_fail _
  split
  · exact keeps_fail _
  · exact keeps_pure _

theorem completeFablesJob_quiet {id : JobId} {newRef : FablesPositionRef} {facts : List FablesCycleFact}
    {parsed rest : Except FablesError Unit} : Quiet (completeFablesJob id newRef facts parsed rest) := by
  intro v start here
  rcases ran : (completeFablesJob id newRef facts parsed rest).run start with ⟨outcome, after⟩
  have kept : view after = v := by
    rcases completeFablesJob_atomic ran with ⟨_, _, same⟩ | ⟨job, row, read, _, _, _, written⟩
    · rw [same, here]
    · have known := view_job read
      rw [here] at known
      rw [written]
      exact @view_putJob { start with
        strategies := start.strategies.put ⟨{ row.config with positionRef := newRef, revision := row.config.revision + 1 }, .monitoring⟩
        ledger := (facts.map (FablesCycleFact.entry job)).foldl insertFact start.ledger }
        { job with state := .completed, errorCode := none } v here known
  cases outcome <;> exact kept

theorem left_quiet (quiet : Quiet program) (store : FablesStore) : view (left program store) = view store :=
  left_keeps (quiet (view store)) rfl

theorem left_bind_quiet {next : α → FablesProgram β} (rest : ∀ a, Quiet (next a)) (store : FablesStore) :
    view (left (program >>= next) store) = view (left program store) := by
  unfold left
  rw [bind_run]
  rcases program.run store with ⟨outcome, after⟩
  cases outcome with
  | ok a => exact left_quiet (rest a) after
  | error e => rfl

theorem follow_view {s : Runtime} {id : JobId} {next : α → Runner} :
    view (s.follow id program next).store = view (left program s.store) := by
  unfold Runtime.follow left
  rcases program.run s.store with ⟨outcome, after⟩
  cases outcome with
  | ok a => rfl
  | error e =>
    cases e with
    | crashed => exact quarantine_view after
    | _ => rfl

end LpTerminal.Fables
