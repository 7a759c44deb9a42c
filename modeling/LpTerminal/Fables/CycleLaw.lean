import LpTerminal.Fables.CycleView

/-!
What a step of the process does to the rows of the journal and to the stages of its jobs.
-/

namespace LpTerminal.Fables

open Durable Store

variable {env : SignerEnv} {chain : Hash → FablesReceipt} {α β : Type}

structure RowEdit (edit : FablesJobTx → FablesJobTx) : Prop where
  key : ∀ tx, (edit tx).key = tx.key
  stage : ∀ tx, (edit tx).stage = tx.stage
  hash : ∀ tx, (edit tx).hash = tx.hash

inductive Turn (tx : FablesJobTx) : FablesTxState → Prop
  | stays : Turn tx tx.state
  | sent (opened : tx.state.unresolved) : Turn tx .sent
  | reviewed (failed : tx.state = .failed) : Turn tx .reviewed

def FablesReceiptStatus.finalState : FablesReceiptStatus → FablesTxState
  | .success => .confirmed
  | .reverted => .failed

/-- Each row keeps its identity and takes a state that `allowed` gives it; the jobs keep their stages. -/
def Edits (allowed : FablesJobTx → FablesTxState → Prop) (start after : FablesStore) : Prop :=
  ∃ edit, ∃ same : RowEdit edit, view after = (start.transactions.adjust edit same.key, (view start).2) ∧
    ∀ tx ∈ start.transactions.rows, allowed tx (edit tx).state

variable {allowed other : FablesJobTx → FablesTxState → Prop} {start after : FablesStore} {s : Runtime}

theorem Edits.mono (edits : Edits allowed start after) (wider : ∀ tx state, allowed tx state → other tx state) : Edits other start after := by
  obtain ⟨edit, same, shown, turns⟩ := edits
  exact ⟨edit, same, shown, fun tx member => wider tx _ (turns tx member)⟩

theorem edits_quiet (same : view after = view start) : Edits Turn start after := by
  refine ⟨fun tx => tx, ⟨fun _ => rfl, fun _ => rfl, fun _ => rfl⟩, ?_, fun tx _ => .stays⟩
  rw [same, Table.adjust_id]
  rfl

theorem edits_view {middle : FablesStore} (edits : Edits allowed start middle) (same : view after = view middle) : Edits allowed start after := by
  obtain ⟨edit, rows, shown, turns⟩ := edits
  exact ⟨edit, rows, same.trans shown, turns⟩

theorem updateFablesTx_edits {id : JobId} {ordinal : Nat} {state : FablesTxState} {facts : Option FablesReceiptFacts}
    {errorCode : Option FablesError}
    (turns : ∀ row, start.transactions.get? (toLex (id, ordinal)) = some row → allowed row state)
    (stays : ∀ row, allowed row row.state) : Edits allowed start (left (updateFablesTx id ordinal state facts errorCode) start) := by
  unfold left updateFablesTx
  rw [bind_run, run_read]
  dsimp only
  cases read : start.transactions.get? (toLex (id, ordinal)) with
  | none =>
    refine ⟨fun tx => tx, ⟨fun _ => rfl, fun _ => rfl, fun _ => rfl⟩, ?_, fun tx _ => stays tx⟩
    rw [Table.adjust_id]
    rfl
  | some row =>
    let edit : FablesJobTx → FablesJobTx := fun tx => { tx with state, facts := facts <|> tx.facts, errorCode }
    have written := @Table.put_eq_adjust _ _ _ _ _ edit (fun _ => rfl) _ _ read
    refine ⟨fun tx => if tx.key = toLex (id, ordinal) then edit tx else tx, ⟨fun tx => ?_, fun tx => ?_, fun tx => ?_⟩,
      Prod.ext written rfl, fun tx member => ?_⟩
    · split <;> rfl
    · split <;> rfl
    · split <;> rfl
    · beta_reduce
      split
      · rename_i here
        exact turns tx (here ▸ Table.get?_of_mem member)
      · exact stays tx

theorem resumeFablesJob_edits {id : JobId} : Edits Turn start (left (resumeFablesJob id) start) := by
  unfold left resumeFablesJob
  rw [bind_run, run_read]
  dsimp only
  cases read : start.jobs.get? id with
  | none => exact edits_quiet rfl
  | some job =>
    dsimp only
    split
    · exact edits_quiet rfl
    split
    · exact edits_quiet rfl
    refine ⟨FablesJobTx.review id, ⟨review_key id, fun tx => ?_, fun tx => (review_same id tx).1⟩, ?_, fun tx _ => ?_⟩
    · unfold FablesJobTx.review
      split <;> rfl
    · have known := view_job read
      refine (view_markStrategy _ _).trans ?_
      exact @view_putJob { start with transactions := start.transactions.adjust (FablesJobTx.review id) (review_key id) }
        { job with state := .running, errorCode := none } (_, (view start).2) rfl known
    · unfold FablesJobTx.review
      split
      · rename_i failed
        exact .reviewed failed.2
      · exact .stays

theorem rebroadcastAnswered_edits {id : JobId} {ordinal : Nat} {hash : Hash} {returned : Except FablesError Hash}
    (inFlight : (id, ordinal, hash) ∈ s.rebroadcasts) (timely : lateRebroadcast s (.rebroadcastReturned id ordinal hash returned) = false) :
    Edits Turn s.store (left (rebroadcastAnswered id ordinal hash returned) s.store) := by
  unfold rebroadcastAnswered
  cases returned with
  | error e => exact edits_quiet rfl
  | ok returned =>
    dsimp only
    split
    · exact edits_quiet rfl
    rename_i same
    refine updateFablesTx_edits (fun row read => ?_) fun _ => .stays
    unfold lateRebroadcast at timely
    dsimp only at timely
    rw [decide_eq_true inFlight, decide_eq_true (not_not.mp same), Bool.true_and, Bool.true_and,
      show s.store.transactions.get? (txKey id ordinal) = some row from read, Option.any_some, Bool.not_eq_false'] at timely
    exact .sent timely

def Signed (args : SendArgs) (start after : FablesStore) : Prop :=
  ∃ tx, tx.key = txKey args.job.id args.ordinal ∧ tx.stage = args.stage ∧ tx.state = .sending ∧ start.transactions.get? tx.key = none ∧
    view after = (start.transactions.put tx, (view start).2)

theorem signFables_signs {args : SendArgs} {reads : Except FablesError Nat} :
    Triple (· = start) (signFables env args reads) (fun _ after => Signed args start after) fun after => view after = view start := by
  have refused : ∀ e, Triple (· = start) (fail e : FablesProgram Unit) (fun _ after => Signed args start after)
      fun after => view after = view start := fun e => triple_fail fun _ same => by rw [same]
  unfold signFables
  split
  · exact refused _
  split
  · exact refused _
  split
  · exact refused _
  split
  · exact refused _
  refine triple_bind (Q := fun told after => told = start ∧ after = start) (triple_read fun _ same => ⟨same, same⟩) fun told => ?_
  refine triple_assume fun here => ?_
  subst here
  split
  · exact refused _
  rename_i free
  split
  · exact refused _
  refine triple_bind (Q := fun _ after => after = told) (triple_reply (fun _ _ same _ => same) fun _ _ same _ => by rw [same]) fun nonce => ?_
  refine triple_bind (Q := fun again after => again = told ∧ after = told) (triple_read fun _ same => ⟨same, same⟩) fun again => ?_
  refine triple_assume fun here => ?_
  subst here
  split
  · exact refused _
  split
  · exact refused _
  split
  · exact refused _
  split
  · exact refused _
  refine triple_write fun _ same => ?_
  subst same
  refine ⟨_, rfl, rfl, rfl, ?_, rfl⟩
  by_contra found
  obtain ⟨row, read⟩ := Option.ne_none_iff_exists'.mp found
  have own : row.jobId = args.job.id := congrArg (fun key => (ofLex key).1) (Table.get?_key read)
  have ordinal : row.ordinal = args.ordinal := congrArg (fun key => (ofLex key).2) (Table.get?_key read)
  refine free (List.any_eq_true.mpr ⟨row, List.mem_filter.mpr ⟨Table.get?_mem read, decide_eq_true own⟩, ?_⟩)
  rw [ordinal]
  simp

def Awaited (s : Runtime) : Prop :=
  ∀ args, s.runner = .broadcasting args → txKey args.job.id args.ordinal ∈ openKeys s.store

def Closes (chain : Hash → FablesReceipt) (mined : List Nat) (tx : FablesJobTx) (state : FablesTxState) : Prop :=
  Turn tx state ∨ (tx.ordinal ∈ mined ∧ state = (chain tx.hash).status.finalState)

theorem Turn.unresolved {tx : FablesJobTx} {state : FablesTxState} (turn : Turn tx state) : state.unresolved = tx.state.unresolved := by
  cases turn with
  | stays => rfl
  | sent opened => exact opened.symm
  | reviewed failed =>
    rw [failed]
    rfl

theorem openKeys_turn {key : TxKey} (edits : Edits Turn start after) (opened : key ∈ openKeys start) : key ∈ openKeys after := by
  obtain ⟨edit, same, shown, turns⟩ := edits
  obtain ⟨tx, member, unresolved, rfl⟩ := opened
  have rows : after.transactions = start.transactions.adjust edit same.key := congrArg Prod.fst shown
  refine ⟨edit tx, ?_, (turns tx member).unresolved.trans unresolved, same.key tx⟩
  rw [rows]
  exact List.mem_map_of_mem member

theorem finalRow_edits {mined : List Nat} {id : JobId} {ordinal : Nat} {hash : Hash} {facts : Option FablesReceiptFacts}
    {errorCode : Option FablesError} (included : ordinal ∈ mined) (names : ∀ other, (txKey id ordinal, other) ∈ slots start → other = hash) :
    Edits (Closes chain mined) start (left (updateFablesTx id ordinal (chain hash).status.finalState facts errorCode) start) := by
  refine updateFablesTx_edits (fun row read => Or.inr ⟨?_, ?_⟩) fun row => Or.inl .stays
  · have same : row.ordinal = ordinal := congrArg (fun key => (ofLex key).2) (Table.get?_key read)
    rw [same]
    exact included
  · rw [names row.hash (slot_of_get? read)]

theorem reconcileTx_edits {mined : List Nat} {tx : FablesJobTx} (included : tx.ordinal ∈ mined)
    (names : ∀ other, (txKey tx.jobId tx.ordinal, other) ∈ slots start → other = tx.hash) :
    Edits (Closes chain mined) start (left (reconcileTx tx (.final (chain tx.hash))) start) := by
  unfold reconcileTx
  dsimp only
  split
  · rename_i status
    have edits := @finalRow_edits chain start mined _ _ _ (some (chain tx.hash).facts) none included names
    rw [status] at edits
    exact edits_view edits (left_bind_quiet (fun _ => quiet_pure _) start)
  · rename_i status
    have edits := @finalRow_edits chain start mined _ _ _ (some (chain tx.hash).facts) (some .txReverted) included names
    rw [status] at edits
    exact edits_view edits (left_bind_quiet (fun _ => quiet_pure _) start)

theorem receiptAnswered_edits {mined : List Nat} {args : SendArgs} {alive : Except FablesError Unit} (included : args.ordinal ∈ mined)
    (names : ∀ other, (txKey args.job.id args.ordinal, other) ∈ slots start → other = args.hash) :
    Edits (Closes chain mined) start (left (receiptAnswered args (.ok (chain args.hash)) alive) start) := by
  unfold receiptAnswered
  dsimp only
  split
  · rename_i status
    have edits := @finalRow_edits chain start mined _ _ _ (some (chain args.hash).facts) (some .txReverted) included names
    rw [status] at edits
    exact edits_view edits (left_bind_quiet (fun _ => quiet_bind (quiet_reply _) fun _ => toRecovery_quiet) start)
  · rename_i status
    have edits := @finalRow_edits chain start mined _ _ _ (some (chain args.hash).facts) none included names
    rw [status] at edits
    exact edits_view edits (left_bind_quiet (fun _ => quiet_bind (quiet_reply _) fun _ => appendFablesLedger_quiet) start)

theorem broadcastAnswered_edits {args : SendArgs} {returned : Except FablesError Hash}
    (opened : txKey args.job.id args.ordinal ∈ openKeys start) : Edits Turn start (left (broadcastAnswered args returned) start) := by
  unfold broadcastAnswered
  split
  · split
    · refine updateFablesTx_edits (fun row read => ?_) fun _ => .stays
      obtain ⟨tx, member, unresolved, same⟩ := opened
      rw [Table.eq_of_key (Table.get?_mem read) member ((key_of_get? read).trans same.symm)]
      exact .sent unresolved
    · exact edits_quiet (left_quiet toRecovery_quiet start)
  · exact edits_quiet (left_quiet toRecovery_quiet start)

theorem startRebroadcast_view {s : Runtime} {id : JobId} {ordinal : Nat} :
    view (step env chain s (.startRebroadcast id ordinal)).store = view s.store := by
  have quiet := left_quiet (@rebroadcastChecks_quiet env id ordinal) s.store
  unfold left at quiet
  unfold step
  dsimp only
  rcases ran : (rebroadcastChecks env id ordinal).run s.store with ⟨outcome, after⟩
  rw [ran] at quiet
  cases outcome <;> exact quiet

variable {mined : List Nat}

theorem step_edits {id : JobId} {s : CycleState} {event : Event} (sound : Sound chain s.runtime) (awaited : Awaited s.runtime)
    (timely : lateRebroadcast s.runtime event = false) (allowed : permitted id s event) :
    Edits (Closes chain s.mined) s.runtime.store (step env chain s.runtime event).store := by
  have still : ∀ {after : FablesStore}, view after = view s.runtime.store → Edits (Closes chain s.mined) s.runtime.store after :=
    fun same => (edits_quiet same).mono fun _ _ => Or.inl
  have quiet : ∀ {γ : Type} {job : JobId} {program : FablesProgram γ} {next : γ → Runner}, Quiet program →
      Edits (Closes chain s.mined) s.runtime.store (s.runtime.follow job program next).store :=
    fun quiet => still (follow_view.trans (left_quiet quiet _))
  have names := sound.names
  cases event with
  | takeJob other =>
    unfold step
    dsimp only
    split
    · split <;> exact still rfl
    · exact still rfl
  | readReceipt answer =>
    unfold step
    dsimp only
    split
    · rename_i job tx rest unresolved here
      rw [here] at names
      obtain ⟨⟨_, hash⟩, _⟩ := List.forall_mem_cons.mp names
      cases answer with
      | missing => exact quiet (quiet_pure _)
      | shallow => exact quiet (quiet_pure _)
      | failed e => exact quiet (quiet_fail _)
      | deep =>
        unfold permitted at allowed
        rw [here] at allowed
        have own : tx.jobId = job.id := (names tx List.mem_cons_self).1
        exact edits_view (reconcileTx_edits (List.contains_iff_mem.mp allowed) hash) follow_view
    · exact still rfl
  | finishReconciliation alive =>
    unfold step
    dsimp only
    split
    · exact quiet reconciled_quiet
    · exact still rfl
  | progress stage context => cases allowed
  | sign stage hash reads => cases allowed
  | broadcastReturned returned =>
    unfold step
    dsimp only
    split
    · rename_i args here
      exact edits_view ((broadcastAnswered_edits (awaited args here)).mono fun _ _ => Or.inl) follow_view
    · exact still rfl
  | receiptReturned found alive =>
    unfold step
    dsimp only
    split
    · rename_i args here
      rw [here] at names
      cases found with
      | error e => exact quiet toRecovery_quiet
      | ok _ =>
        unfold permitted at allowed
        rw [here] at allowed
        exact edits_view (receiptAnswered_edits (List.contains_iff_mem.mp allowed) names) follow_view
    · exact still rfl
  | complete newRef facts parsed rest =>
    unfold step
    dsimp only
    split
    · exact quiet completeFablesJob_quiet
    · exact still rfl
  | stageThrows code =>
    unfold step
    dsimp only
    split <;> exact still rfl
  | stopSteps =>
    unfold step
    dsimp only
    split <;> exact still rfl
  | attend =>
    unfold step
    dsimp only
    split
    · exact quiet fablesAttention_quiet
    · exact still rfl
  | startRebroadcast other ordinal => exact still startRebroadcast_view
  | rebroadcastReturned other ordinal hash returned =>
    unfold step
    dsimp only
    split
    · rename_i inFlight
      exact (rebroadcastAnswered_edits inFlight timely).mono fun _ _ => Or.inl
    · exact still rfl
  | resume other => exact resumeFablesJob_edits.mono fun _ _ => Or.inl
  | crash => exact still (quarantine_view s.runtime.store)

def Runner.Of (id : JobId) : Runner → Prop
  | .reconciling job _ _ => job.id = id
  | .stepping other => other = id
  | .broadcasting args | .waiting args => args.job.id = id
  | .idle | .attention _ _ => True

theorem follow_runner {s : Runtime} {id : JobId} {program : FablesProgram α} {next : α → Runner} {P : Runtime → Prop}
    (returned : ∀ a after, program.run s.store = (.ok a, after) → P { s with store := after, runner := next a })
    (threw : ∀ code after, P { s with store := after, runner := .attention id code }) (died : ∀ after, P (restarted after)) :
    P (s.follow id program next) := by
  unfold Runtime.follow
  rcases ran : program.run s.store with ⟨outcome, after⟩
  cases outcome with
  | ok a => exact returned a after ran
  | error code =>
    cases code with
    | crashed => exact died after
    | _ => exact threw _ after

theorem sign_of {s : Runtime} {id : JobId} (own : s.runner.Of id) {stage : FablesJobStage} {hash : Hash} {reads : Except FablesError Nat} :
    (step env chain s (.sign stage hash reads)).runner.Of id := by
  unfold step
  dsimp only
  split
  · rename_i other stepping
    rw [stepping] at own
    split
    · trivial
    rename_i job read
    split
    · exact follow_runner (P := fun t => t.runner.Of id) (fun _ _ _ => (Table.get?_key read).trans own) (fun _ _ => trivial) fun _ => trivial
    · trivial
  · exact own

theorem step_of {s : CycleState} {id : JobId} {event : Event} (own : s.runtime.runner.Of id)
    (allowed : permitted id s event ∨ (∃ stage context, event = .progress stage context) ∨ ∃ stage hash reads, event = .sign stage hash reads) :
    (step env chain s.runtime event).runner.Of id := by
  have goes : ∀ {γ : Type} {job : JobId} {program : FablesProgram γ} {next : γ → Runner}, (∀ a, (next a).Of id) →
      (s.runtime.follow job program next).runner.Of id :=
    fun next => follow_runner (P := fun t => t.runner.Of id) (fun a _ _ => next a) (fun _ _ => trivial) fun _ => trivial
  cases event with
  | takeJob other =>
    have same : other = id := by
      rcases allowed with allowed | ⟨_, _, same⟩ | ⟨_, _, _, same⟩
      · exact of_decide_eq_true allowed
      · cases same
      · cases same
    unfold step
    dsimp only
    split
    · rename_i job _ read
      split
      · exact (Table.get?_key read).trans same
      · exact own
    · exact own
  | readReceipt answer =>
    unfold step
    dsimp only
    split
    · rename_i here
      rw [here] at own
      exact goes fun _ => own
    · exact own
  | finishReconciliation alive =>
    unfold step
    dsimp only
    split
    · rename_i here
      rw [here] at own
      refine goes fun went => ?_
      cases went with
      | true => exact own
      | false => trivial
    · exact own
  | progress stage context =>
    unfold step
    dsimp only
    split
    · rename_i here
      rw [here] at own
      exact goes fun _ => own
    · exact own
  | sign stage hash reads => exact sign_of own
  | broadcastReturned returned =>
    unfold step
    dsimp only
    split
    · rename_i here
      rw [here] at own
      exact goes fun _ => own
    · exact own
  | receiptReturned found alive =>
    unfold step
    dsimp only
    split
    · rename_i here
      rw [here] at own
      exact goes fun _ => own
    · exact own
  | complete newRef facts parsed rest =>
    unfold step
    dsimp only
    split
    · exact goes fun _ => trivial
    · exact own
  | stageThrows code =>
    unfold step
    dsimp only
    split
    · trivial
    · exact own
  | stopSteps =>
    unfold step
    dsimp only
    split
    · trivial
    · exact own
  | attend =>
    unfold step
    dsimp only
    split
    · exact goes fun _ => trivial
    · exact own
  | startRebroadcast other ordinal =>
    unfold step
    dsimp only
    split <;> exact own
  | rebroadcastReturned other ordinal hash returned =>
    unfold step
    dsimp only
    split <;> exact own
  | resume other => exact own
  | crash => trivial

theorem sign_view {s : Runtime} {id : JobId} (own : s.runner.Of id) {stage : FablesJobStage} {hash : Hash} {reads : Except FablesError Nat} :
    view (step env chain s (.sign stage hash reads)).store = view s.store ∨
      ∃ tx, s.runner = .stepping id ∧ tx.jobId = id ∧ tx.stage = stage ∧ tx.state = .sending ∧ s.store.transactions.get? tx.key = none ∧
        view (step env chain s (.sign stage hash reads)).store = (s.store.transactions.put tx, (view s.store).2) := by
  unfold step
  dsimp only
  split
  · rename_i other stepping
    rw [stepping] at own
    split
    · exact Or.inl rfl
    rename_i job read
    split
    · rw [follow_view]
      have ends := @signFables_signs env s.store ⟨job, stage, nextOrdinal s.store other, hash⟩ reads s.store rfl
      unfold left
      rcases ran : (signFables env ⟨job, stage, nextOrdinal s.store other, hash⟩ reads).run s.store with ⟨outcome, after⟩
      rw [ran] at ends
      cases outcome with
      | error e => exact Or.inl ends
      | ok _ =>
        obtain ⟨tx, key, ofStage, sending, fresh, shown⟩ := ends
        have job : tx.jobId = job.id := congrArg (fun key => (ofLex key).1) key
        exact Or.inr ⟨tx, by rw [own] at stepping; exact stepping, job.trans ((Table.get?_key read).trans own), ofStage, sending, fresh, shown⟩
    · exact Or.inl rfl
  · exact Or.inl rfl

theorem step_awaited {s : Runtime} {event : Event} (awaited : Awaited s) (timely : lateRebroadcast s event = false) :
    Awaited (step env chain s event) := by
  have elsewhere : ∀ {t : Runtime}, (∀ args, t.runner ≠ .broadcasting args) → Awaited t := fun away args here => absurd here (away args)
  have goes : ∀ {γ : Type} {job : JobId} {program : FablesProgram γ} {next : γ → Runner}, (∀ a args, next a ≠ .broadcasting args) →
      Awaited (s.follow job program next) :=
    fun next => follow_runner (P := Awaited) (fun a _ _ => elsewhere (next a)) (fun _ _ => elsewhere fun _ => nofun) fun _ => elsewhere fun _ => nofun
  have stays : ∀ {after : FablesStore} {rebroadcasts : List (JobId × Nat × Hash)}, Edits Turn s.store after →
      Awaited { s with store := after, rebroadcasts } := fun edits args here => openKeys_turn edits (awaited args here)
  cases event with
  | takeJob other =>
    unfold step
    dsimp only
    split
    · split
      · exact elsewhere fun _ => nofun
      · exact awaited
    · exact awaited
  | readReceipt answer =>
    unfold step
    dsimp only
    split
    · exact goes fun _ _ => nofun
    · exact awaited
  | finishReconciliation alive =>
    unfold step
    dsimp only
    split
    · exact goes fun went args => by cases went <;> exact nofun
    · exact awaited
  | progress stage context =>
    unfold step
    dsimp only
    split
    · exact goes fun _ _ => nofun
    · exact awaited
  | sign stage hash reads =>
    unfold step
    dsimp only
    split
    · rename_i other _
      split
      · exact elsewhere fun _ => nofun
      rename_i job _
      split
      · refine follow_runner (P := Awaited) (fun _ after ran args here => ?_) (fun _ _ => elsewhere fun _ => nofun) fun _ => elsewhere fun _ => nofun
        cases here
        have ends := @signFables_signs env s.store ⟨job, stage, nextOrdinal s.store other, hash⟩ reads s.store rfl
        rw [ran] at ends
        obtain ⟨tx, key, _, sending, _, shown⟩ := ends
        have rows : after.transactions = s.store.transactions.put tx := congrArg Prod.fst shown
        exact ⟨tx, by change tx ∈ after.transactions.rows; rw [rows]; exact Table.mem_put.mpr (Or.inl rfl), by rw [sending]; rfl, key⟩
      · exact elsewhere fun _ => nofun
    · exact awaited
  | broadcastReturned returned =>
    unfold step
    dsimp only
    split
    · exact goes fun _ _ => nofun
    · exact awaited
  | receiptReturned found alive =>
    unfold step
    dsimp only
    split
    · exact goes fun _ _ => nofun
    · exact awaited
  | complete newRef facts parsed rest =>
    unfold step
    dsimp only
    split
    · exact goes fun _ _ => nofun
    · exact awaited
  | stageThrows code =>
    unfold step
    dsimp only
    split
    · exact elsewhere fun _ => nofun
    · exact awaited
  | stopSteps =>
    unfold step
    dsimp only
    split
    · exact elsewhere fun _ => nofun
    · exact awaited
  | attend =>
    unfold step
    dsimp only
    split
    · exact goes fun _ _ => nofun
    · exact awaited
  | startRebroadcast other ordinal =>
    have shown := @startRebroadcast_view env chain s other ordinal
    unfold step at shown ⊢
    dsimp only at shown ⊢
    split at shown
    · exact stays (edits_quiet shown)
    · exact fun args here => openKeys_turn (edits_quiet shown) (awaited args here)
  | rebroadcastReturned other ordinal hash returned =>
    unfold step
    dsimp only
    split
    · rename_i inFlight
      exact stays (rebroadcastAnswered_edits inFlight timely)
    · exact awaited
  | resume other => exact fun args here => openKeys_turn resumeFablesJob_edits (awaited args here)
  | crash => exact elsewhere fun _ => nofun

theorem view_update {store : FablesStore} {job : FablesJob} :
    view (store.putJob job) = (store.transactions, Function.update (view store).2 job.id (some (job.stage, job.context))) := by
  unfold view FablesStore.putJob
  refine Prod.ext rfl (funext fun id => ?_)
  by_cases own : id = job.id
  · subst own
    simp
  · simp [Table.get?_put_other own, Function.update_of_ne own]

theorem progress_view {s : Runtime} {id : JobId} (own : s.runner.Of id) {stage : Option FablesJobStage} {context : Option FablesJobContext} :
    view (step env chain s (.progress stage context)).store = view s.store ∨
      ∃ job, s.store.jobs.get? id = some job ∧
        view (step env chain s (.progress stage context)).store =
          (s.store.transactions, Function.update (view s.store).2 id (some (stage.getD job.stage, context.getD job.context))) := by
  unfold step
  dsimp only
  split
  · rename_i other stepping
    rw [stepping] at own
    rw [follow_view]
    unfold left setFablesJobProgress
    rw [bind_run, run_read]
    dsimp only
    cases read : s.store.jobs.get? other with
    | none => exact Or.inl rfl
    | some row =>
      dsimp only
      split
      · exact Or.inl rfl
      have key : row.id = id := (Table.get?_key read).trans own
      refine Or.inr ⟨row, by rw [← own]; exact read, ?_⟩
      rw [← key]
      split
      · exact (view_markStrategy _ _).trans view_update
      split
      · exact (view_markStrategy _ _).trans view_update
      · exact view_update
  · exact Or.inl rfl

end LpTerminal.Fables
