import LpTerminal.Fables.CycleBooks
import LpTerminal.Lib.Fallible

/-!
The amounts a cycle takes from the wallet's balance differences, which count only the gas of confirmed
transactions.
-/

namespace LpTerminal.Fables

open Durable Fallible Store Trace

variable {env : SignerEnv} {chain : Hash → FablesReceipt} {moved : Hash → FablesAmounts} {key : Currencies} {id : JobId}
  {s t : CycleState} {amount : FablesJobTx → ℤ} {tx : FablesJobTx}

variable {store : FablesStore}

theorem lastConfirmed_none {stage : FablesJobStage} (nothing : lastConfirmed store id stage = none) :
    ∀ tx ∈ store.transactions.rows, tx.jobId = id → tx.stage = stage → tx.state ≠ .confirmed := by
  intro tx member own ofStage confirmed
  have empty := List.getLast?_eq_none_iff.mp nothing
  have found : tx ∈ (fablesJobTransactions store id).filter fun tx => tx.stage = stage && tx.state = .confirmed :=
    List.mem_filter.mpr ⟨List.mem_filter.mpr ⟨member, decide_eq_true own⟩, by simp [ofStage, confirmed]⟩
  rw [empty] at found
  cases found

theorem lastConfirmed_some {stage : FablesJobStage} (last : lastConfirmed store id stage = some tx) :
    tx ∈ store.transactions.rows ∧ tx.jobId = id ∧ tx.stage = stage ∧ tx.state = .confirmed := by
  obtain ⟨inside, chosen⟩ := List.mem_filter.mp (List.mem_of_getLast? last)
  obtain ⟨member, own⟩ := List.mem_filter.mp inside
  simp only [Bool.and_eq_true, decide_eq_true_eq] at chosen
  exact ⟨member, of_decide_eq_true own, chosen.1, chosen.2⟩

theorem stepping_closed (settled : Settled s.runtime) (tracked : Tracked chain moved key id s) (stepping : s.runtime.runner = .stepping id) :
    ∀ tx ∈ s.rows.rows, tx.state.unresolved = false := by
  have knows := settled.runner
  rw [stepping] at knows
  exact fun tx member => Bool.eq_false_iff.mpr fun opened => knows tx.key ⟨tx, member, opened, rfl⟩ (tracked.own tx member)

theorem gas_split : s.gas chain = s.revertedGas chain + s.total fun tx => if (chain tx.hash).status = .success then ((chain tx.hash).facts.cost : ℤ) else 0 := by
  unfold CycleState.gas CycleState.revertedGas
  rw [← total_add]
  refine total_congr fun tx _ _ => ?_
  cases (chain tx.hash).status <;> simp

theorem received_short {baseline : FablesAmounts} {counted : ℤ}
    (wallet0 : s.wallet.amount0 = baseline.amount0 + s.total (fun tx => (payout chain moved tx).amount0) - gasIn key.currency0 (s.gas chain))
    (wallet1 : s.wallet.amount1 = baseline.amount1 + s.total (fun tx => (payout chain moved tx).amount1) - gasIn key.currency1 (s.gas chain))
    (gas : (s.total fun tx => if (chain tx.hash).status = .success then ((chain tx.hash).facts.cost : ℤ) else 0) = counted)
    (pays : ∀ tx ∈ s.rows.rows, tx.ordinal ∈ s.mined → tx.stage.pays ∨ payout chain moved tx = ⟨0, 0⟩) :
    Short key (s.revertedGas chain) (received key baseline s.wallet counted) (s.paidOut chain moved) := by
  have paid : ∀ amount : FablesJobTx → ℤ, (∀ tx, payout chain moved tx = ⟨0, 0⟩ → amount tx = 0) →
      s.total amount = s.total fun tx => if tx.stage.pays then amount tx else 0 := by
    refine fun amount nothing => total_congr fun tx member landed => ?_
    rcases pays tx member landed with yes | free
    · rw [if_pos yes]
    · rw [nothing tx free, ite_self]
  have paid0 := paid (fun tx => (payout chain moved tx).amount0) fun tx free => by rw [free]
  have paid1 := paid (fun tx => (payout chain moved tx).amount1) fun tx free => by rw [free]
  rw [gas_split, gas, gasIn_add, paid0] at wallet0
  rw [gas_split, gas, gasIn_add, paid1] at wallet1
  refine ⟨?_, ?_⟩
  · unfold received CycleState.paidOut
    dsimp only
    rw [wallet0]
    ring
  · unfold received CycleState.paidOut
    dsimp only
    rw [wallet1]
    ring

theorem staged_of_job (tracked : Tracked chain moved key id s) {job : FablesJob} (read : s.runtime.store.jobs.get? id = some job) :
    job.id = id ∧ (view s.runtime.store).2 id = some (job.stage, job.context) ∧ Staged chain moved key s s.lost job.stage job.context := by
  obtain ⟨stage, context, known, staged⟩ := tracked.job
  have own : job.id = id := Table.get?_key read
  have shown := view_job read
  rw [own] at shown
  cases known.symm.trans shown
  exact ⟨own, shown, staged⟩

theorem savedAmounts_ok {value : Option FablesAmounts} {missing : FablesError} {amounts : FablesAmounts}
    (read : savedAmounts value missing = .ok amounts) : value = some amounts := by
  cases value with
  | none => cases read
  | some stored =>
    cases read
    rfl

theorem exit_short {job : FablesJob} {paid : FablesAmounts} (tracked : Tracked chain moved key id s)
    (closed : ∀ tx ∈ s.rows.rows, tx.state.unresolved = false) (read : s.runtime.store.jobs.get? id = some job) (exiting : job.stage = .exit)
    (took : exitPaid key s.runtime.store job s.wallet chain = .ok paid) : Short key (s.revertedGas chain) paid (s.paidOut chain moved) := by
  obtain ⟨own, _, staged⟩ := staged_of_job tracked read
  rw [exiting] at staged
  obtain ⟨baseline, kept, wallet0, wallet1⟩ := staged.balance nofun
  unfold exitPaid at took
  rw [kept, own] at took
  cases last : lastConfirmed s.runtime.store id .exit with
  | none =>
    rw [last] at took
    cases took
  | some tx =>
    rw [last] at took
    cases took
    obtain ⟨member, _, ofStage, confirmed⟩ := lastConfirmed_some last
    have landed := tracked.final tx member (by rw [confirmed]; rfl)
    refine received_short wallet0 wallet1 ?_ fun row inside _ => Or.inl (by rw [staged.exits rfl row inside]; rfl)
    rw [total_only member landed.1 fun row inside included apart => ?_, if_pos (landed.2.mp confirmed)]
    rw [if_neg fun success => ?_]
    have stands : row.state = .confirmed := (tracked.final row inside (closed row inside)).2.mpr success
    exact apart (tracked.alone row inside tx member (by rw [stands]; rfl) (by rw [confirmed]; rfl)
      ((staged.exits rfl row inside).trans ofStage.symm) (by rw [staged.exits rfl row inside]; rfl))

theorem balance_pays {context : FablesJobContext} (staged : Staged chain moved key s s.lost .balance context)
    (unconverted : context.feeConversionDone = false) :
    ∀ tx ∈ s.rows.rows, tx.ordinal ∈ s.mined → tx.stage.pays ∨ payout chain moved tx = ⟨0, 0⟩ := by
  intro tx member landed
  unfold payout
  by_cases success : (chain tx.hash).status = .success
  · have stays := staged.landed tx member landed success
    rw [unconverted] at stays
    cases here : tx.stage <;> rw [here] at stays
    all_goals first
      | exact Or.inl rfl
      | exact Or.inr (if_neg fun both => both.2 rfl)
      | cases stays
  · exact Or.inr (if_neg fun both => success both.1)

theorem confirmed_gas (recorded : Recorded chain s.runtime.store) (tracked : Tracked chain moved key id s)
    (closed : ∀ tx ∈ s.rows.rows, tx.state.unresolved = false) :
    (s.total fun tx => if (chain tx.hash).status = .success then ((chain tx.hash).facts.cost : ℤ) else 0) =
      (((fablesJobTransactions s.runtime.store id).filter (·.state = .confirmed)).map fun tx =>
        (((tx.facts.map FablesReceiptFacts.cost).getD 0 : ℕ) : ℤ)).sum := by
  have chosen : ∀ tx ∈ s.rows.rows, (s.mined.contains tx.ordinal && decide ((chain tx.hash).status = .success)) =
      (decide (tx.state = .confirmed) && decide (tx.jobId = id)) := by
    intro tx member
    obtain ⟨included, status⟩ := tracked.final tx member (closed tx member)
    simp [included, status, tracked.own tx member]
  have stored : ∀ tx ∈ s.rows.rows, tx.facts.map FablesReceiptFacts.cost = some (chain tx.hash).facts.cost := by
    intro tx member
    obtain ⟨facts, read⟩ := Option.isSome_iff_exists.mp (recorded.final tx member (closed tx member))
    rw [read, Option.map_some, recorded.known tx member facts read]
  unfold CycleState.total
  rw [Table.total_ite, Table.total_congr chosen]
  unfold Table.total fablesJobTransactions
  rw [List.filter_filter]
  refine congrArg List.sum (List.map_congr_left fun tx member => ?_)
  rw [stored tx (List.mem_of_mem_filter member)]
  rfl

theorem realized_short {job : FablesJob} {realized : FablesAmounts} (recorded : Recorded chain s.runtime.store)
    (tracked : Tracked chain moved key id s) (closed : ∀ tx ∈ s.rows.rows, tx.state.unresolved = false)
    (read : s.runtime.store.jobs.get? id = some job) (balancing : job.stage = .balance)
    (took : realizedAmounts key s.runtime.store job s.wallet = .ok realized) :
    Short key (if job.context.feeConversionDone then s.lost else s.revertedGas chain) realized (s.paidOut chain moved) := by
  obtain ⟨own, _, staged⟩ := staged_of_job tracked read
  rw [balancing] at staged
  obtain ⟨baseline, kept, wallet0, wallet1⟩ := staged.balance nofun
  unfold realizedAmounts at took
  rw [kept, own] at took
  cases converted : job.context.feeConversionDone with
  | true =>
    rw [converted] at took
    obtain ⟨stored, same, short⟩ := staged.stored (Or.inl converted)
    cases same.symm.trans (savedAmounts_ok took)
    exact short
  | false =>
    rw [converted] at took
    cases took
    exact received_short wallet0 wallet1 (confirmed_gas recorded tracked closed) (balance_pays staged converted)

variable {stage next : FablesJobStage} {context context' : FablesJobContext} {lost lost' : ℤ} {job : FablesJob}

theorem Staged.transport (staged : Staged chain moved key s lost stage context) (rows : t.rows = s.rows) (mined : t.mined = s.mined)
    (wallet : t.wallet = s.wallet) : Staged chain moved key t lost stage context := by
  have sums : ∀ amount, t.total amount = s.total amount := total_same rows mined
  refine ⟨?_, ?_, ?_, ?_, ?_, staged.early, ?_⟩
  · rw [rows]
    exact staged.current
  · rw [rows]
    exact staged.unsigned
  · rw [rows]
    exact staged.exits
  · unfold CycleState.gas
    rw [wallet, sums, sums, sums]
    exact staged.balance
  · rw [rows, mined]
    exact staged.landed
  · rw [paidOut_congr fun amount _ => sums amount]
    exact staged.stored

theorem tracked_progress (tracked : Tracked chain moved key id s) (shown : view t.runtime.store =
      (s.runtime.store.transactions, Function.update (view s.runtime.store).2 id (some (stage, context))))
    (same : t.mined = s.mined ∧ t.wallet = s.wallet) (staged : Staged chain moved key s t.lost stage context) :
    Tracked chain moved key id t := by
  have rows : t.rows = s.rows := congrArg Prod.fst shown
  obtain ⟨mined, wallet⟩ := same
  refine ⟨?_, ?_, ?_, ?_, ?_, stage, context, ?_, staged.transport rows mined wallet⟩
  · rw [rows]
    exact tracked.own
  · rw [rows]
    exact tracked.sends
  · rw [rows, mined]
    exact tracked.known
  · rw [rows, mined]
    exact tracked.final
  · rw [rows]
    exact tracked.alone
  · rw [shown]
    exact Function.update_self _ _ _

theorem Staged.moves (staged : Staged chain moved key s lost stage context) (closed : ∀ tx ∈ s.rows.rows, tx.state.unresolved = false)
    (away : stage ≠ .precheck) (later : next ≠ .precheck ∧ next ≠ .exit) (baseline : context'.baseline = context.baseline)
    (landed : ∀ tx ∈ s.rows.rows, tx.ordinal ∈ s.mined → (chain tx.hash).status = .success →
      outlives tx.stage stage context.feeConversionDone → outlives tx.stage next context'.feeConversionDone)
    (early : next = .claim → context'.feeConversionDone = false)
    (stored : context'.feeConversionDone = true ∨ next = .feeConversionApproval ∨ next = .feeConversion →
      ∃ realized, context'.realized = some realized ∧ Short key lost' realized (s.paidOut chain moved)) :
    Staged chain moved key s lost' next context' where
  current tx member opened := by
    rw [closed tx member] at opened
    cases opened
  unsigned nothing := absurd nothing later.1
  exits exiting := absurd exiting later.2
  balance _ := by
    rw [baseline]
    exact staged.balance away
  landed tx member mined success := landed tx member mined success (staged.landed tx member mined success)
  early which := by
    rcases which with same | same | same
    · exact absurd same later.1
    · exact absurd same later.2
    · exact early same
  stored := stored

variable {landed : FablesJobStage}

theorem outlives_unconverted {done : Bool} (unswapped : stage = .exit ∨ stage = .claim ∨ stage = .balance)
    (lives : outlives landed stage false) : outlives landed next done := by
  rcases unswapped with rfl | rfl | rfl <;> cases landed <;> first | rfl | exact absurd lives (by decide)

theorem outlives_converted {done : Bool} (unswapped : stage = .balance ∨ stage = .feeConversion)
    (lives : outlives landed stage done) : outlives landed next true := by
  rcases unswapped with rfl | rfl <;> cases done <;> cases landed <;> first
    | exact absurd lives (by decide)
    | (cases next <;> rfl)

theorem outlives_move {done confirmed : Bool} (moves : stageMoves stage next confirmed)
    (lives : outlives landed stage done) (own : landed = stage → confirmed) : outlives landed next done := by
  cases confirmed <;> cases stage <;> cases next <;> first
    | exact absurd moves (by decide)
    | cases done <;> cases landed <;> first
      | rfl
      | exact absurd lives (by decide)
      | exact absurd (own rfl) (by decide)

theorem stageMoves_stages {confirmed : Bool} (moves : stageMoves stage next confirmed) :
    stage ≠ .precheck ∧ next ≠ .precheck ∧ next ≠ .exit ∧ next ≠ .claim ∧
      (next = .feeConversionApproval ∨ next = .feeConversion → stage = .feeConversionApproval ∨ stage = .feeConversion) := by
  cases confirmed <;> cases stage <;> cases next <;> first | exact absurd moves (by decide) | decide

/-- What a turn asks for: an error, a signature for the job's stage, or a move to a stage whose books hold. -/
inductive Asks (chain : Hash → FablesReceipt) (moved : Hash → FablesAmounts) (key : Currencies) (id : JobId) (s : CycleState) (job : FablesJob)
    (lost : ℤ) : Event → Prop
  | throws (code : FablesError) : Asks chain moved key id s job lost (.stageThrows code)
  | signs (hash : Hash) (reads : Except FablesError Nat) (sends : job.stage.sends)
      (first : job.stage.approval ∨ lastConfirmed s.runtime.store id job.stage = none) : Asks chain moved key id s job lost (.sign job.stage hash reads)
  | moves (stage : Option FablesJobStage) (context : Option FablesJobContext)
      (staged : Staged chain moved key s lost (stage.getD job.stage) (context.getD job.context)) :
      Asks chain moved key id s job lost (.progress stage context)

theorem asks_answered {answer : Except FablesError Progress}
    (moves : ∀ args, answer = .ok args → Staged chain moved key s lost (args.stage.getD job.stage) (args.context.getD job.context)) :
    Asks chain moved key id s job lost (answered answer) := by
  cases answer with
  | error code => exact .throws code
  | ok args => exact .moves args.stage args.context (moves args rfl)

theorem map_ok {β γ : Type} {answer : Except FablesError β} {f : β → γ} {result : γ} (read : answer.map f = .ok result) :
    ∃ b, answer = .ok b ∧ f b = result := by
  cases answer with
  | error e => cases read
  | ok b =>
    cases read
    exact ⟨b, rfl, rfl⟩

theorem exitOldRange_ok {shares : Nat} {current : FablesAmounts} {args : Progress}
    (ran : exitOldRange key store job current chain shares = .ok args) : args = { stage := some .claim } := by
  unfold exitOldRange at ran
  split at ran
  · cases ran
  obtain ⟨minimum, _, ran⟩ := bind_ok ran
  obtain ⟨paid, _, ran⟩ := bind_ok ran
  split at ran
  · cases ran
  · cases ran
    rfl

theorem balanceAndPlan_ok {plan : Except FablesError BalancePlan} {current : FablesAmounts} {args : Progress}
    (ran : balanceAndPlan key store job current plan = .ok args) :
    ∃ realized principal next, realizedAmounts key store job current = .ok realized ∧
      (next = .feeConversionApproval ∧ job.context.feeConversionDone = false ∨ next = .swapApproval ∨ next = .depositApproval) ∧
      args = { stage := some next, context := some { job.context with principal := some principal, realized := some realized } } := by
  unfold balanceAndPlan at ran
  obtain ⟨fees, _, ran⟩ := bind_ok ran
  obtain ⟨realized, took, ran⟩ := bind_ok ran
  split at ran
  · cases ran
  obtain ⟨principal, _, ran⟩ := bind_ok ran
  obtain ⟨planned, _, ran⟩ := bind_ok ran
  cases ran
  refine ⟨realized, principal, _, took, ?_, rfl⟩
  split
  · rename_i converts
    exact Or.inl ⟨rfl, Bool.eq_false_iff.mpr converts.2⟩
  · split
    · exact Or.inr (Or.inl rfl)
    · exact Or.inr (Or.inr rfl)

theorem total_empty (none : s.rows.rows = []) : s.total amount = 0 := by
  unfold CycleState.total Table.total
  rw [none]
  rfl

theorem gasIn_zero (currency : Address) : gasIn currency 0 = 0 := by
  unfold gasIn
  split <;> rfl

theorem staged_precheck (staged : Staged chain moved key s s.lost .precheck context) :
    Staged chain moved key s s.lost .exit { context with baseline := some s.wallet } := by
  have none := staged.unsigned rfl
  have rowless : ∀ {P : FablesJobTx → Prop}, ∀ tx ∈ s.rows.rows, P tx := by
    rw [none]
    exact fun _ member => nomatch member
  have unconverted := staged.early (Or.inl rfl)
  refine ⟨rowless, nofun, fun _ => rowless, fun _ => ⟨s.wallet, rfl, ?_, ?_⟩, rowless, fun _ => unconverted, fun done => ?_⟩
  · unfold CycleState.gas
    rw [total_empty none, total_empty none, gasIn_zero, add_zero, sub_zero]
  · unfold CycleState.gas
    rw [total_empty none, total_empty none, gasIn_zero, add_zero, sub_zero]
  · rcases done with converted | same | same
    · cases converted.symm.trans unconverted
    · cases same
    · cases same

theorem turn_asks {turn : StageTurn} {asked : Event} (recorded : Recorded chain s.runtime.store) (tracked : Tracked chain moved key id s)
    (closed : ∀ tx ∈ s.rows.rows, tx.state.unresolved = false) (read : s.runtime.store.jobs.get? id = some job)
    (asks : turnEvent chain key id s job turn = some asked) : Asks chain moved key id s job (turnLost chain s job turn) asked := by
  obtain ⟨own, _, staged⟩ := staged_of_job tracked read
  have confirmed : ∀ tx ∈ s.rows.rows, (chain tx.hash).status = .success → tx.state = .confirmed := fun tx member success =>
    (tracked.final tx member (closed tx member)).2.mpr success
  cases turn with
  | precheck checks =>
    obtain ⟨here, same⟩ := Option.ite_none_right_eq_some.mp asks
    cases same
    rw [here] at staged
    refine asks_answered fun args told => ?_
    obtain ⟨_, _, rfl⟩ := map_ok told
    exact staged_precheck staged
  | quoteExit minimum =>
    obtain ⟨here, same⟩ := Option.ite_none_right_eq_some.mp asks
    cases same
    exact .moves none _ ⟨staged.current, staged.unsigned, staged.exits, staged.balance, staged.landed, staged.early, staged.stored⟩
  | send hash reads =>
    obtain ⟨here, same⟩ := Option.ite_none_right_eq_some.mp asks
    cases same
    exact .signs hash reads here.1 here.2
  | settleExit shares =>
    obtain ⟨here, same⟩ := Option.ite_none_right_eq_some.mp asks
    cases same
    have unconverted := staged.early (Or.inr (Or.inl here))
    refine asks_answered fun args told => ?_
    rw [exitOldRange_ok told]
    refine staged.moves closed (by rw [here]; nofun) ⟨nofun, nofun⟩ rfl (fun tx _ _ _ lives => ?_) (fun _ => unconverted) fun done => ?_
    · rw [here, unconverted] at lives
      exact outlives_unconverted (Or.inl rfl) lives
    · rcases done with converted | same | same
      · cases converted.symm.trans unconverted
      · cases same
      · cases same
  | settleFees fees =>
    obtain ⟨here, same⟩ := Option.ite_none_right_eq_some.mp asks
    cases same
    have unconverted := staged.early (Or.inr (Or.inr here))
    refine asks_answered fun args told => ?_
    obtain ⟨_, _, rfl⟩ := map_ok told
    refine staged.moves closed (by rw [here]; nofun) ⟨nofun, nofun⟩ rfl (fun tx _ _ _ lives => ?_) nofun fun done => ?_
    · rw [here, unconverted] at lives
      exact outlives_unconverted (Or.inr (Or.inl rfl)) lives
    · rcases done with converted | same | same
      · cases converted.symm.trans unconverted
      · cases same
      · cases same
  | plan plan =>
    obtain ⟨here, same⟩ := Option.ite_none_right_eq_some.mp asks
    cases same
    refine asks_answered fun args told => ?_
    obtain ⟨realized, principal, next, took, stages, rfl⟩ := balanceAndPlan_ok told
    have short := realized_short recorded tracked closed read here took
    have later : next ≠ .precheck ∧ next ≠ .exit ∧ next ≠ .claim := by
      rcases stages with ⟨rfl, _⟩ | rfl | rfl <;> exact ⟨nofun, nofun, nofun⟩
    refine staged.moves closed (by rw [here]; nofun) ⟨later.1, later.2.1⟩ rfl (fun tx _ _ _ lives => ?_) (fun same => absurd same later.2.2)
      fun _ => ⟨realized, rfl, short⟩
    change outlives tx.stage next job.context.feeConversionDone
    rw [here] at lives
    cases converted : job.context.feeConversionDone with
    | false =>
      rw [converted] at lives
      exact outlives_unconverted (Or.inr (Or.inr rfl)) lives
    | true => exact outlives_converted (Or.inl rfl) lives
  | converted =>
    obtain ⟨here, same⟩ := Option.ite_none_right_eq_some.mp asks
    cases same
    refine .moves _ _ (staged.moves closed (by rw [here.1]; nofun) ⟨nofun, nofun⟩ rfl (fun tx _ _ _ lives => ?_) nofun
      fun _ => staged.stored (Or.inr (Or.inr here.1)))
    rw [here.1] at lives
    exact outlives_converted (Or.inr rfl) lives
  | move next =>
    obtain ⟨here, same⟩ := Option.ite_none_right_eq_some.mp asks
    cases same
    obtain ⟨away, early, exits, claims, converting⟩ := stageMoves_stages here
    refine .moves _ _ (staged.moves closed away ⟨early, exits⟩ rfl (fun tx member _ success lives => ?_) (fun same => absurd same claims)
      fun done => staged.stored (done.imp_right converting))
    refine outlives_move here lives fun ofStage => ?_
    cases last : lastConfirmed s.runtime.store id job.stage with
    | some _ => rfl
    | none => exact absurd (confirmed tx member success) (lastConfirmed_none last tx member (tracked.own tx member) ofStage)

def timely (chain : Hash → FablesReceipt) (key : Currencies) (id : JobId) (s : CycleState) (event : CycleEvent) : Bool :=
  (request chain key id s event).all fun asked => !lateRebroadcast s.runtime asked

structure Sane (chain : Hash → FablesReceipt) (moved : Hash → FablesAmounts) (key : Currencies) (id : JobId) (s : CycleState) : Prop where
  sound : Sound chain s.runtime
  settled : Settled s.runtime
  awaited : Awaited s.runtime
  own : s.runtime.runner.Of id
  tracked : Tracked chain moved key id s

theorem mine_runtime {ordinal : Nat} : (mine chain moved key id s ordinal).runtime = s.runtime := by
  unfold mine
  split
  · rfl
  · split <;> rfl

theorem working_some (own : s.runtime.runner.Of id) (works : s.working id = some job) :
    s.runtime.runner = .stepping id ∧ s.runtime.store.jobs.get? id = some job := by
  unfold CycleState.working at works
  split at works
  · rename_i other stepping
    rw [stepping] at own
    exact ⟨by rw [stepping, show other = id from own], (Option.filter_eq_some_iff.mp works).1⟩
  · cases works

theorem sane_step {event : Event} (sane : Sane chain moved key id s) (onTime : lateRebroadcast s.runtime event = false)
    (allowed : permitted id s event ∨ (∃ stage context, event = .progress stage context) ∨ ∃ stage hash reads, event = .sign stage hash reads)
    (runtime : t.runtime = step env chain s.runtime event) (tracked : Tracked chain moved key id t) : Sane chain moved key id t := by
  refine ⟨?_, ?_, ?_, ?_, tracked⟩
  · rw [runtime]
    exact (step_moved sane.sound event).sound
  · rw [runtime]
    exact step_settled sane.sound sane.settled onTime
  · rw [runtime]
    exact step_awaited sane.awaited onTime
  · rw [runtime]
    exact step_of sane.own allowed

theorem tracked_lost {turn : StageTurn} {asked : Event} (tracked : Tracked chain moved key id s) (read : s.runtime.store.jobs.get? id = some job)
    (asks : turnEvent chain key id s job turn = some asked) : Tracked chain moved key id { s with lost := turnLost chain s job turn } := by
  obtain ⟨own, shown, staged⟩ := staged_of_job tracked read
  refine ⟨tracked.own, tracked.sends, tracked.known, tracked.final, tracked.alone, job.stage, job.context, shown, ?_⟩
  refine ⟨staged.current, staged.unsigned, staged.exits, staged.balance, staged.landed, staged.early, fun done => ?_⟩
  obtain ⟨realized, kept, short⟩ := staged.stored done
  cases turn with
  | plan plan =>
    obtain ⟨here, _⟩ := Option.ite_none_right_eq_some.mp asks
    rw [here] at done
    have converted : job.context.feeConversionDone = true := by
      rcases done with converted | same | same
      · exact converted
      · cases same
      · cases same
    refine ⟨realized, kept, ?_⟩
    unfold turnLost
    rw [converted]
    exact short
  | precheck | quoteExit | send | settleExit | settleFees | converted | move => exact ⟨realized, kept, short⟩

theorem sane_turn {turn : StageTurn} {asked : Event} (sane : Sane chain moved key id s) (works : s.working id = some job)
    (asks : turnEvent chain key id s job turn = some asked) (onTime : lateRebroadcast s.runtime asked = false) :
    Sane chain moved key id { s with runtime := step env chain s.runtime asked, lost := turnLost chain s job turn } := by
  obtain ⟨stepping, read⟩ := working_some sane.own works
  have closed := stepping_closed sane.settled sane.tracked stepping
  have measured := tracked_lost sane.tracked read asks
  have wanted := turn_asks sane.sound.recorded sane.tracked closed read asks
  cases wanted with
  | throws code =>
    have edits : Edits (Closes chain s.mined) s.runtime.store (step env chain s.runtime (.stageThrows code)).store :=
      @step_edits env chain id s (.stageThrows code) sane.sound sane.awaited onTime rfl
    exact @sane_step env _ _ _ _ _ _ _ sane onTime (Or.inl rfl) rfl (tracked_edits measured edits ⟨rfl, rfl, rfl⟩)
  | signs hash reads sends first =>
    refine @sane_step env _ _ _ _ _ _ _ sane onTime (Or.inr (Or.inr ⟨_, _, _, rfl⟩)) rfl ?_
    rcases @sign_view env chain s.runtime id sane.own job.stage hash reads with same | ⟨tx, _, own, ofStage, sending, fresh, shown⟩
    · exact tracked_edits measured ((edits_quiet same).mono fun _ _ => Or.inl) ⟨rfl, rfl, rfl⟩
    · refine tracked_sign measured closed own (ofStage ▸ sends) sending fresh (fun stage context known => ?_) ?_ shown ⟨rfl, rfl, rfl⟩
      · cases known.symm.trans (staged_of_job sane.tracked read).2.1
        exact ofStage
      · rw [ofStage]
        exact first.imp_right fun none tx member => lastConfirmed_none none tx member (sane.tracked.own tx member)
  | moves stage context staged =>
    refine @sane_step env _ _ _ _ _ _ _ sane onTime (Or.inr (Or.inl ⟨_, _, rfl⟩)) rfl ?_
    rcases @progress_view env chain s.runtime id sane.own stage context with same | ⟨row, again, shown⟩
    · exact tracked_edits measured ((edits_quiet same).mono fun _ _ => Or.inl) ⟨rfl, rfl, rfl⟩
    · cases read.symm.trans again
      exact tracked_progress sane.tracked shown ⟨rfl, rfl⟩ staged

theorem cycleStep_sane {event : CycleEvent} (sane : Sane chain moved key id s) (onTime : timely chain key id s event) :
    Sane chain moved key id (cycleStep env chain moved key id s event) := by
  unfold timely at onTime
  unfold cycleStep
  cases event with
  | mine ordinal =>
    dsimp only
    refine ⟨?_, ?_, ?_, ?_, tracked_mine sane.tracked ordinal⟩ <;> rw [mine_runtime]
    · exact sane.sound
    · exact sane.settled
    · exact sane.awaited
    · exact sane.own
  | runtime event =>
    dsimp only
    split
    · exact sane
    rename_i asked asks
    obtain ⟨allowed, same⟩ := Option.ite_none_right_eq_some.mp asks
    cases same
    rw [asks, Option.all_some, Bool.not_eq_true'] at onTime
    exact sane_step sane onTime (Or.inl allowed) rfl
      (tracked_edits sane.tracked (step_edits sane.sound sane.awaited onTime allowed) ⟨rfl, rfl, rfl⟩)
  | turn turn =>
    dsimp only
    split
    · exact sane
    rename_i asked asks
    rw [asks, Option.all_some, Bool.not_eq_true'] at onTime
    obtain ⟨job, works, asks⟩ := Option.bind_eq_some_iff.mp asks
    rw [works]
    exact sane_turn sane works asks onTime

def AgreeUnless (key : Currencies) (gas : ℤ) (taken paid : FablesAmounts) : Prop :=
  (taken.amount0 = paid.amount0 ↔ (key.currency0 = zeroAddress → gas = 0)) ∧
    (taken.amount1 = paid.amount1 ↔ (key.currency1 = zeroAddress → gas = 0))

theorem Short.agree {gas : ℤ} {taken paid : FablesAmounts} (short : Short key gas taken paid) : AgreeUnless key gas taken paid := by
  have each : ∀ (currency : Address) (took out : ℤ), took = out - gasIn currency gas → (took = out ↔ (currency = zeroAddress → gas = 0)) := by
    intro currency took out missing
    unfold gasIn at missing
    split at missing
    · rename_i native
      simp only [native, true_implies]
      omega
    · rename_i token
      simp only [token, false_implies, iff_true]
      omega
  exact ⟨each _ _ _ short.amount0, each _ _ _ short.amount1⟩

/-- In every state of every run of a job in which no answer to a rebroadcast is stored over a final receipt, the
amounts taken from the wallet are what the pool has paid out exactly when the job's reverted transactions burnt
nothing of that currency. -/
theorem cycle_amounts {s : CycleState} (events : List CycleEvent)
    (empty : s.runtime.store.transactions.rows = [] ∧ s.runtime.store.ledger = [] ∧ s.runtime.runner = .idle ∧ s.mined = [])
    (planned : ∃ job, s.runtime.store.jobs.get? id = some job ∧ job.stage = .precheck ∧ job.context.feeConversionDone = false)
    (onTime : Along (cycleStep env chain moved key id) (fun s event => timely chain key id s event = true) s events) :
    let t := run (cycleStep env chain moved key id) s events
    ∀ job, t.working id = some job →
      (job.stage = .exit → ∀ paid, exitPaid key t.runtime.store job t.wallet chain = .ok paid →
        AgreeUnless key (t.revertedGas chain) paid (t.paidOut chain moved)) ∧
      (job.stage = .balance → ∀ realized, realizedAmounts key t.runtime.store job t.wallet = .ok realized →
        AgreeUnless key (if job.context.feeConversionDone then t.lost else t.revertedGas chain) realized (t.paidOut chain moved)) := by
  obtain ⟨noRows, noLedger, idle, unmined⟩ := empty
  obtain ⟨job, read, prechecks, unconverted⟩ := planned
  have rowless : ∀ {P : FablesJobTx → Prop}, ∀ tx ∈ s.rows.rows, P tx := by
    rw [show s.rows.rows = [] from noRows]
    exact fun _ member => nomatch member
  have tracked : Tracked chain moved key id s := by
    refine ⟨rowless, rowless, fun ordinal member => ?_, rowless, rowless, job.stage, job.context, ?_, ?_⟩
    · rw [unmined] at member
      cases member
    · have shown := view_job read
      rw [show job.id = id from Table.get?_key read] at shown
      exact shown
    · rw [prechecks]
      refine ⟨rowless, fun _ => noRows, nofun, fun away => absurd rfl away, rowless, fun _ => unconverted, fun done => ?_⟩
      rcases done with converted | same | same
      · cases converted.symm.trans unconverted
      · cases same
      · cases same
  have sane : Sane chain moved key id s := by
    refine ⟨⟨⟨rowless, rowless, ?_, ?_, ?_⟩, by rw [idle]; trivial⟩, ⟨?_, by rw [idle]; trivial⟩, ?_, by rw [idle]; trivial, tracked⟩
    · simp [noLedger]
    · simp [noLedger]
    · simp [noLedger]
    · rintro first ⟨tx, member, _⟩
      rw [noRows] at member
      cases member
    · intro args waits
      rw [idle] at waits
      cases waits
  have each : ∀ t event, Sane chain moved key id t → timely chain key id t event = true →
      Sane chain moved key id (cycleStep env chain moved key id t event) := fun _ _ sane onTime => cycleStep_sane sane onTime
  have reached := run_keeps each sane onTime
  intro t job works
  obtain ⟨stepping, read⟩ := working_some reached.own works
  have closed := stepping_closed reached.settled reached.tracked stepping
  exact ⟨fun exiting paid took => (exit_short reached.tracked closed read exiting took).agree,
    fun balancing realized took => (realized_short reached.sound.recorded reached.tracked closed read balancing took).agree⟩

def nativePool : Currencies := ⟨zeroAddress, 5⟩

def exitPayout (_ : Hash) : FablesAmounts := ⟨1000, 500⟩

def plannedCycle : CycleState where
  runtime := plannedJob
  wallet := ⟨5000, 0⟩

abbrev nativeStep := cycleStep journalEnv journalChain exitPayout nativePool 1

def exitAttempt (ordinal : Nat) (hash : Hash) : List CycleEvent :=
  [.turn (.quoteExit ⟨950, 500⟩), .turn (.send hash (.ok ordinal)), .runtime (.broadcastReturned (.ok hash)), .mine ordinal,
    .runtime (.receiptReturned (.ok ()) (.ok ()))]

def cycleStart : List CycleEvent :=
  [.runtime (.takeJob 1), .runtime (.finishReconciliation fun _ => .ok ()), .turn (.precheck (.ok ()))]

theorem cycle_amounts_one_attempt :
    let events := cycleStart ++ exitAttempt 0 12 ++ [.turn (.settleExit 0), .turn (.settleFees (.ok ⟨100, 50⟩))]
    let t := run nativeStep plannedCycle events
    (t.working 1).map (fun job => (job.stage, (realizedAmounts nativePool t.runtime.store job t.wallet).toOption)) =
        some (.balance, some ⟨1000, 500⟩) ∧
      ∀ job, t.working 1 = some job → ∀ realized, realizedAmounts nativePool t.runtime.store job t.wallet = .ok realized →
        job.stage = .balance → AgreeUnless nativePool (if job.context.feeConversionDone then t.lost else t.revertedGas journalChain)
          realized (t.paidOut journalChain exitPayout) :=
  ⟨by decide, fun job works realized took balancing =>
    (cycle_amounts _ ⟨rfl, rfl, rfl, rfl⟩ ⟨_, rfl, rfl, rfl⟩ (by decide) job works).2 balancing realized took⟩

/-- A reverted attempt costs 60; the exit then pays 1000, of which 940 are found, below the minimum of 950. -/
theorem reverted_exit_underpaid :
    let t := run nativeStep plannedCycle (cycleStart ++ exitAttempt 0 11 ++
      [.runtime .attend, .runtime (.resume 1), .runtime (.takeJob 1), .runtime (.finishReconciliation fun _ => .ok ())] ++ exitAttempt 1 12)
    (t.working 1).map (fun job => (exitPaid nativePool t.runtime.store job t.wallet journalChain).toOption) = some (some ⟨940, 500⟩) ∧
      t.paidOut journalChain exitPayout = ⟨1000, 500⟩ ∧
      (t.working 1).map (fun job => (exitOldRange nativePool t.runtime.store job t.wallet journalChain 0).map fun _ => ()) =
        some (.error .exitUnderpaid) := by
  decide

end LpTerminal.Fables
