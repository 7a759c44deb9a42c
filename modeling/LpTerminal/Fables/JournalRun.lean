import LpTerminal.Fables.JournalLaw
import LpTerminal.Fables.Runtime

/-!
The laws of the Fables journal over every run of the executor.
-/

namespace LpTerminal.Fables

open Durable Store Trace

variable {env : SignerEnv} {chain : Hash → FablesReceipt} {s t : Runtime} {α : Type}

def Runner.Names (store : FablesStore) : Runner → Prop
  | .reconciling job todo _ => ∀ tx ∈ todo, tx.jobId = job.id ∧ ∀ other, (tx.key, other) ∈ slots store → other = tx.hash
  | .broadcasting args | .waiting args => ∀ other, (txKey args.job.id args.ordinal, other) ∈ slots store → other = args.hash
  | .idle | .stepping _ | .attention _ _ => True

structure Sound (chain : Hash → FablesReceipt) (s : Runtime) : Prop where
  recorded : Recorded chain s.store
  names : s.runner.Names s.store

variable {before after : FablesStore}

theorem Runner.Names.mono {runner : Runner} (names : runner.Names before) (fewer : slots after ⊆ slots before) :
    runner.Names after := by
  cases runner with
  | idle => trivial
  | stepping id => trivial
  | attention id code => trivial
  | broadcasting args => exact fun other member => names other (fewer member)
  | waiting args => exact fun other member => names other (fewer member)
  | reconciling job todo unresolved => exact fun tx member => ⟨(names tx member).1, fun other found => (names tx member).2 other (fewer found)⟩

structure Moved (chain : Hash → FablesReceipt) (s t : Runtime) : Prop where
  sound : Sound chain t
  ledger : s.store.ledger <+: t.store.ledger
  added : ∀ slot ∈ slots t.store, slot ∈ slots s.store ∨ ∃ id, s.runner = .stepping id ∧ (ofLex slot.1).1 = id

theorem Moved.refl (sound : Sound chain s) : Moved chain s s :=
  ⟨sound, List.prefix_rfl, fun _ member => Or.inl member⟩

variable {program : FablesProgram α} {rows : Set (TxKey × Hash)} {opens : Set TxKey} {next : α → Runner} {id : JobId}

theorem follow_ends {P : Runtime → Prop}
    (does : Does chain s.store program opens rows) (recorded : Recorded chain s.store)
    (returned : ∀ a after, program.run s.store = (.ok a, after) → Advance chain s.store after opens rows →
      P { s with store := after, runner := next a })
    (threw : ∀ code after, Advance chain s.store after opens rows → P { s with store := after, runner := .attention id code })
    (died : ∀ after, Advance chain s.store after opens rows → P (restarted after)) : P (s.follow id program next) := by
  have ends := does recorded s.store rfl
  unfold Runtime.follow
  rcases ran : program.run s.store with ⟨outcome, after⟩
  rw [ran] at ends
  cases outcome with
  | ok a => exact returned a after ran ends
  | error code =>
    cases code with
    | crashed => exact died after ends
    | _ => exact threw _ after ends

theorem restarted_moved {after : FablesStore} (advance : Advance chain s.store after opens rows)
    (recorded : Recorded chain s.store)
    (added : ∀ slot ∈ rows, slot ∈ slots s.store ∨ ∃ id, s.runner = .stepping id ∧ (ofLex slot.1).1 = id) :
    Moved chain s (restarted after) where
  sound := ⟨(quarantine_still after).recorded (advance.recorded recorded), trivial⟩
  ledger := advance.ledger.trans (@quarantine_still chain after).ledger
  added slot member := added slot (advance.slots ((@quarantine_still chain after).slots member))

theorem follow_moved (sound : Sound chain s)
    (does : Does chain s.store program opens (slots s.store))
    (names : ∀ a after, slots after ⊆ slots s.store → (next a).Names after) : Moved chain s (s.follow id program next) := by
  refine follow_ends does sound.recorded (fun a after _ advance => ?_) (fun code after advance => ?_) fun after advance => ?_
  · exact ⟨⟨advance.recorded sound.recorded, names a after advance.slots⟩, advance.ledger, fun slot member => Or.inl (advance.slots member)⟩
  · exact ⟨⟨advance.recorded sound.recorded, trivial⟩, advance.ledger, fun slot member => Or.inl (advance.slots member)⟩
  · exact restarted_moved advance sound.recorded fun _ member => Or.inl member

theorem left_moved {rebroadcasts : List (JobId × Nat × Hash)} (sound : Sound chain s)
    (does : Does chain s.store program opens (slots s.store)) :
    Moved chain s { s with store := left program s.store, rebroadcasts } := by
  have advance : Advance chain s.store (left program s.store) opens (slots s.store) := left_keeps (does sound.recorded) rfl
  exact ⟨⟨advance.recorded sound.recorded, sound.names.mono advance.slots⟩, advance.ledger, fun slot member => Or.inl (advance.slots member)⟩

theorem le_foldl_ordinal (txs : List FablesJobTx) (most : Nat) :
    most ≤ txs.foldl (fun most tx => max most (tx.ordinal + 1)) most ∧
      ∀ tx ∈ txs, tx.ordinal < txs.foldl (fun most tx => max most (tx.ordinal + 1)) most := by
  induction txs generalizing most with
  | nil => exact ⟨le_rfl, fun _ member => nomatch member⟩
  | cons tx rest ih =>
    obtain ⟨grows, below⟩ := ih (max most (tx.ordinal + 1))
    rw [List.foldl_cons]
    exact ⟨(le_max_left _ _).trans grows, List.forall_mem_cons.mpr ⟨lt_of_lt_of_le (by omega) grows, below⟩⟩

theorem nextOrdinal_fresh (store : FablesStore) (id : JobId) (hash : Hash) : (txKey id (nextOrdinal store id), hash) ∉ slots store := by
  rintro ⟨tx, member, same⟩
  have key : tx.key = txKey id (nextOrdinal store id) := congrArg Prod.fst same
  have job : tx.jobId = id := congrArg (fun key => (ofLex key).1) key
  have ordinal : tx.ordinal = nextOrdinal store id := congrArg (fun key => (ofLex key).2) key
  have below := (le_foldl_ordinal (fablesJobTransactions store id) 0).2 tx (List.mem_filter.mpr ⟨member, decide_eq_true job⟩)
  change tx.ordinal < nextOrdinal store id at below
  omega

variable {job : FablesJob}

theorem takeJob_names {store : FablesStore} (read : store.jobs.get? id = some job) :
    (Runner.reconciling job ((fablesJobTransactions store id).filter (·.state.unresolved)) 0).Names store := by
  intro tx member
  obtain ⟨inside, _⟩ := List.mem_filter.mp member
  obtain ⟨present, own⟩ := List.mem_filter.mp inside
  refine ⟨(of_decide_eq_true own).trans (Table.get?_key read).symm, fun other found => ?_⟩
  obtain ⟨row, old, same⟩ := found
  have key : row.key = tx.key := congrArg Prod.fst same
  have equal := Table.eq_of_key old present key
  rw [← equal]
  exact (congrArg Prod.snd same).symm

theorem sign_moved {stage : FablesJobStage} {hash : Hash} {reads : Except FablesError Nat} (sound : Sound chain s) :
    Moved chain s (step env chain s (.sign stage hash reads)) := by
  unfold step
  dsimp only
  split
  · rename_i id stepping
    split
    · exact ⟨⟨sound.recorded, trivial⟩, List.prefix_rfl, fun _ member => Or.inl member⟩
    rename_i job read
    split
    · have own : job.id = id := Table.get?_key read
      have added : ∀ slot ∈ insert (txKey job.id (nextOrdinal s.store id), hash) (slots s.store),
          slot ∈ slots s.store ∨ ∃ id, s.runner = .stepping id ∧ (ofLex slot.1).1 = id := by
        rintro slot (rfl | old)
        · exact Or.inr ⟨id, stepping, own⟩
        · exact Or.inl old
      refine follow_ends signFables_does sound.recorded (fun _ after _ advance => ?_) (fun code after advance => ?_) fun after advance => ?_
      · refine ⟨⟨advance.recorded sound.recorded, fun other member => ?_⟩, advance.ledger, fun slot member => added slot (advance.slots member)⟩
        rcases advance.slots member with same | old
        · exact congrArg Prod.snd same
        · exact absurd (own ▸ old) (nextOrdinal_fresh s.store id other)
      · exact ⟨⟨advance.recorded sound.recorded, trivial⟩, advance.ledger, fun slot member => added slot (advance.slots member)⟩
      · exact restarted_moved advance sound.recorded added
    · exact ⟨⟨sound.recorded, trivial⟩, List.prefix_rfl, fun _ member => Or.inl member⟩
  · exact Moved.refl sound

theorem step_moved (sound : Sound chain s) (event : Event) : Moved chain s (step env chain s event) := by
  have names := sound.names
  cases event with
  | takeJob id =>
    unfold step
    dsimp only
    split
    · rename_i job _ read
      split
      · exact ⟨⟨sound.recorded, takeJob_names read⟩, List.prefix_rfl, fun _ member => Or.inl member⟩
      · exact Moved.refl sound
    · exact Moved.refl sound
  | readReceipt answer =>
    unfold step
    dsimp only
    split
    · rename_i job tx rest unresolved here
      rw [here] at names
      obtain ⟨⟨own, hash⟩, others⟩ := List.forall_mem_cons.mp names
      have later : ∀ (stays : Bool) (after : FablesStore), slots after ⊆ slots s.store →
          (Runner.reconciling job rest (if stays then unresolved + 1 else unresolved)).Names after := fun stays after fewer other member =>
        ⟨(others other member).1, fun found inside => (others other member).2 found (fewer inside)⟩
      cases answer with
      | missing => exact follow_moved sound (rests_pure true s.store) later
      | shallow => exact follow_moved sound (rests_pure true s.store) later
      | failed e => exact follow_moved sound (rests_fail e s.store) later
      | deep => exact follow_moved sound (reconcileTx_final hash) later
    · exact Moved.refl sound
  | finishReconciliation alive =>
    unfold step
    dsimp only
    split
    · exact follow_moved sound (reconciled_rests s.store) fun goes after _ => by cases goes <;> trivial
    · exact Moved.refl sound
  | progress stage context =>
    unfold step
    dsimp only
    split
    · exact follow_moved sound (setFablesJobProgress_rests s.store) fun _ _ _ => trivial
    · exact Moved.refl sound
  | sign stage hash reads => exact sign_moved sound
  | broadcastReturned returned =>
    unfold step
    dsimp only
    split
    · rename_i args here
      rw [here] at names
      exact follow_moved sound broadcastAnswered_does fun _ after fewer other member => names other (fewer member)
    · exact Moved.refl sound
  | receiptReturned found alive =>
    unfold step
    dsimp only
    split
    · rename_i args here
      rw [here] at names
      cases found with
      | error e => exact follow_moved sound (receiptAnswered_lost s.store) fun _ _ _ => trivial
      | ok _ => exact follow_moved sound (receiptAnswered_final names) fun _ _ _ => trivial
    · exact Moved.refl sound
  | complete newRef facts parsed rest =>
    unfold step
    dsimp only
    split
    · exact follow_moved sound (completeFablesJob_rests s.store) fun _ _ _ => trivial
    · exact Moved.refl sound
  | stageThrows code =>
    unfold step
    dsimp only
    split
    · exact ⟨⟨sound.recorded, trivial⟩, List.prefix_rfl, fun _ member => Or.inl member⟩
    · exact Moved.refl sound
  | stopSteps =>
    unfold step
    dsimp only
    split
    · exact ⟨⟨sound.recorded, trivial⟩, List.prefix_rfl, fun _ member => Or.inl member⟩
    · exact Moved.refl sound
  | attend =>
    unfold step
    dsimp only
    split
    · exact follow_moved sound (fablesAttention_rests s.store) fun _ _ _ => trivial
    · exact Moved.refl sound
  | startRebroadcast id ordinal =>
    have advance := @rebroadcastChecks_rests chain env id ordinal s.store sound.recorded s.store rfl
    unfold step
    dsimp only
    split
    · rename_i ran
      rw [ran] at advance
      exact ⟨⟨advance.recorded sound.recorded, names.mono advance.slots⟩, advance.ledger, fun _ member => Or.inl (advance.slots member)⟩
    · rename_i ran
      rw [ran] at advance
      exact ⟨⟨advance.recorded sound.recorded, names.mono advance.slots⟩, advance.ledger, fun _ member => Or.inl (advance.slots member)⟩
  | rebroadcastReturned id ordinal hash returned =>
    unfold step
    dsimp only
    split
    · exact left_moved sound rebroadcastAnswered_does
    · exact Moved.refl sound
  | resume id => exact left_moved sound (resumeFablesJob_rests s.store)
  | crash => exact restarted_moved (Still.refl chain s.store) sound.recorded fun _ member => Or.inl member

variable {alive : Nat → Except FablesError Unit}

theorem reconciled_goes {unresolved : Nat} {start after : FablesStore}
    (ran : (reconciled job unresolved alive).run start = (.ok true, after)) : unresolved = 0 := by
  iterate 3 obtain ⟨_, _, _, ran⟩ := bind_returns ran
  by_contra open_rows
  rw [if_pos open_rows] at ran
  split at ran
  · split at ran
    · obtain ⟨_, _, _, ran⟩ := bind_returns ran
      cases ran
    · cases ran
  · cases ran

theorem receiptAnswered_throws {args : SendArgs} {e : FablesError} {alive : Except FablesError Unit} {start after : FablesStore} :
    (receiptAnswered args (.error e) alive).run start ≠ (.ok (), after) := by
  intro ran
  obtain ⟨_, _, _, ran⟩ := bind_returns ran
  cases ran

def Runner.Settled (store : FablesStore) : Runner → Prop
  | .reconciling job todo unresolved =>
    unresolved = 0 → ∀ key ∈ openKeys store, (ofLex key).1 = job.id → ∃ tx ∈ todo, tx.key = key
  | .stepping id => ∀ key ∈ openKeys store, (ofLex key).1 ≠ id
  | .broadcasting args | .waiting args => ∀ key ∈ openKeys store, (ofLex key).1 = args.job.id → key = txKey args.job.id args.ordinal
  | .idle | .attention _ _ => True

structure Settled (s : Runtime) : Prop where
  single : ∀ first ∈ openKeys s.store, ∀ second ∈ openKeys s.store, (ofLex first).1 = (ofLex second).1 → first = second
  runner : s.runner.Settled s.store

theorem Runner.Settled.mono {runner : Runner} (settled : runner.Settled before)
    (fewer : openKeys after ⊆ openKeys before) : runner.Settled after := by
  cases runner with
  | idle => trivial
  | attention id code => trivial
  | stepping id => exact fun key inside => settled key (fewer inside)
  | broadcasting args => exact fun key inside => settled key (fewer inside)
  | waiting args => exact fun key inside => settled key (fewer inside)
  | reconciling job todo unresolved => exact fun none key inside => settled none key (fewer inside)

local instance rebroadcasts_lawful : LawfulBEq (JobId × Nat × Hash) := inferInstance

def lateRebroadcast (s : Runtime) : Event → Bool
  | .rebroadcastReturned id ordinal hash (.ok returned) =>
    (id, ordinal, hash) ∈ s.rebroadcasts && returned = hash &&
      (s.store.transactions.get? (txKey id ordinal)).any fun tx => !tx.state.unresolved
  | _ => false

theorem single_mono
    (single : ∀ first ∈ openKeys before, ∀ second ∈ openKeys before, (ofLex first).1 = (ofLex second).1 → first = second)
    (fewer : openKeys after ⊆ openKeys before) :
    ∀ first ∈ openKeys after, ∀ second ∈ openKeys after, (ofLex first).1 = (ofLex second).1 → first = second :=
  fun first left second right => single first (fewer left) second (fewer right)

theorem restarted_settled (chain : Hash → FablesReceipt) {after : FablesStore} (settled : Settled s)
    (fewer : openKeys after ⊆ openKeys s.store) : Settled (restarted after) :=
  ⟨single_mono settled.single ((@quarantine_still chain after).unresolved.trans fewer), trivial⟩

theorem follow_settled
    (sound : Sound chain s) (settled : Settled s) (does : Does chain s.store program opens rows) (fewer : opens ⊆ openKeys s.store)
    (knows : ∀ a after, program.run s.store = (.ok a, after) → openKeys after ⊆ opens → (next a).Settled after) :
    Settled (s.follow id program next) := by
  refine follow_ends does sound.recorded (fun a after ran advance => ?_) (fun code after advance => ?_) fun after advance => ?_
  · exact ⟨single_mono settled.single (advance.unresolved.trans fewer), knows a after ran advance.unresolved⟩
  · exact ⟨single_mono settled.single (advance.unresolved.trans fewer), trivial⟩
  · exact restarted_settled chain settled (advance.unresolved.trans fewer)

theorem follow_opens {key : TxKey}
    (sound : Sound chain s) (settled : Settled s) (does : Does chain s.store program (insert key (openKeys s.store)) rows)
    (only : ∀ other ∈ openKeys s.store, (ofLex other).1 = (ofLex key).1 → other = key)
    (knows : ∀ a after, openKeys after ⊆ insert key (openKeys s.store) → (next a).Settled after) : Settled (s.follow id program next) := by
  have single : ∀ after, openKeys after ⊆ insert key (openKeys s.store) →
      ∀ first ∈ openKeys after, ∀ second ∈ openKeys after, (ofLex first).1 = (ofLex second).1 → first = second := by
    intro after fewer first left second right same
    rcases fewer left with rfl | old
    · rcases fewer right with rfl | other
      · rfl
      · exact (only second other same.symm).symm
    · rcases fewer right with rfl | other
      · exact only first old same
      · exact settled.single first old second other same
  refine follow_ends does sound.recorded (fun a after _ advance => ?_) (fun code after advance => ?_) fun after advance => ?_
  · exact ⟨single after advance.unresolved, knows a after advance.unresolved⟩
  · exact ⟨single after advance.unresolved, trivial⟩
  · exact ⟨single_mono (single after advance.unresolved) (@quarantine_still chain after).unresolved, trivial⟩

theorem rebroadcast_settled {ordinal : Nat} {hash : Hash} {returned : Except FablesError Hash} (sound : Sound chain s)
    (inFlight : (id, ordinal, hash) ∈ s.rebroadcasts)
    (timely : lateRebroadcast s (.rebroadcastReturned id ordinal hash returned) = false) :
    openKeys (left (rebroadcastAnswered id ordinal hash returned) s.store) ⊆ openKeys s.store := by
  have refused : ∀ e, openKeys (left (fail e : FablesProgram Unit) s.store) ⊆ openKeys s.store := fun _ => subset_rfl
  unfold rebroadcastAnswered
  cases returned with
  | error e => exact refused e
  | ok returned =>
    dsimp only
    split
    · exact refused _
    rename_i same
    unfold lateRebroadcast at timely
    dsimp only at timely
    rw [decide_eq_true inFlight, decide_eq_true (not_not.mp same), Bool.true_and, Bool.true_and] at timely
    cases read : s.store.transactions.get? (txKey id ordinal) with
    | none =>
      have missing : left (updateFablesTx id ordinal .sent none none) s.store = s.store := by
        unfold left updateFablesTx
        rw [bind_run, run_read]
        simp only [show s.store.transactions.get? (toLex (id, ordinal)) = none from read]
        rfl
      rw [missing]
    | some tx =>
      rw [read, Option.any_some, Bool.not_eq_false'] at timely
      have advance : Advance chain s.store (left (updateFablesTx id ordinal .sent none none) s.store)
          (insert (txKey id ordinal) (openKeys s.store)) (slots s.store) := left_keeps (updateFablesTx_sent sound.recorded) rfl
      have held : txKey id ordinal ∈ openKeys s.store := ⟨tx, Table.get?_mem read, timely, Table.get?_key read⟩
      rw [← Set.insert_eq_of_mem held]
      exact advance.unresolved

theorem step_settled (sound : Sound chain s) (settled : Settled s) {event : Event} (timely : lateRebroadcast s event = false) :
    Settled (step env chain s event) := by
  have knows := settled.runner
  cases event with
  | takeJob id =>
    unfold step
    dsimp only
    split
    · rename_i job _ read
      split
      · refine ⟨settled.single, fun _ key inside own => ?_⟩
        obtain ⟨tx, member, opened, rfl⟩ := inside
        have job : tx.jobId = id := own.trans (Table.get?_key read)
        exact ⟨tx, List.mem_filter.mpr ⟨List.mem_filter.mpr ⟨member, decide_eq_true job⟩, opened⟩, rfl⟩
      · exact settled
    · exact settled
  | readReceipt answer =>
    unfold step
    dsimp only
    split
    · rename_i job tx rest unresolved here
      have names := sound.names
      rw [here] at knows names
      have hash := (List.forall_mem_cons.mp names).1.2
      have stays : ∀ a after, (pure true : FablesProgram Bool).run s.store = (.ok a, after) → openKeys after ⊆ openKeys s.store →
          (Runner.reconciling job rest (if a then unresolved + 1 else unresolved)).Settled after := by
        intro a after ran _ none
        cases ran
        cases none
      cases answer with
      | missing => exact follow_settled sound settled (rests_pure true s.store) subset_rfl stays
      | shallow => exact follow_settled sound settled (rests_pure true s.store) subset_rfl stays
      | failed e => exact follow_settled sound settled (rests_fail e s.store) subset_rfl fun a after ran => nomatch ran
      | deep =>
        refine follow_settled sound settled (reconcileTx_final hash) (fun _ inside => inside.1) fun a after ran fewer none key inside own => ?_
        have before := fewer inside
        have open_rows : unresolved = 0 := by
          cases a with
          | true => simp at none
          | false => simpa using none
        obtain ⟨other, member, same⟩ := knows open_rows key before.1 own
        rcases List.mem_cons.mp member with rfl | later
        · exact absurd same.symm before.2
        · exact ⟨other, later, same⟩
    · exact settled
  | finishReconciliation alive =>
    unfold step
    dsimp only
    split
    · rename_i job unresolved here
      rw [here] at knows
      refine follow_settled sound settled (reconciled_rests s.store) subset_rfl fun goes after ran fewer => ?_
      cases goes with
      | false => trivial
      | true =>
        have none : unresolved = 0 := reconciled_goes ran
        intro key inside own
        obtain ⟨_, member, _⟩ := knows none key (fewer inside) own
        cases member
    · exact settled
  | progress stage context =>
    unfold step
    dsimp only
    split
    · rename_i here
      rw [here] at knows
      exact follow_settled sound settled (setFablesJobProgress_rests s.store) subset_rfl fun _ after _ fewer key inside =>
        knows key (fewer inside)
    · exact settled
  | sign stage hash reads =>
    unfold step
    dsimp only
    split
    · rename_i id here
      rw [here] at knows
      split
      · exact ⟨settled.single, trivial⟩
      rename_i job read
      split
      · have own : job.id = id := Table.get?_key read
        refine follow_opens sound settled signFables_does (fun other inside same => ?_) fun _ after fewer key inside same => ?_
        · exact absurd (same.trans own) (knows other inside)
        · rcases fewer inside with rfl | old
          · rfl
          · exact absurd (same.trans own) (knows key old)
      · exact ⟨settled.single, trivial⟩
    · exact settled
  | broadcastReturned returned =>
    unfold step
    dsimp only
    split
    · rename_i args here
      rw [here] at knows
      refine follow_opens sound settled broadcastAnswered_does knows fun _ after fewer key inside same => ?_
      rcases fewer inside with rfl | old
      · rfl
      · exact knows key old same
    · exact settled
  | receiptReturned found alive =>
    unfold step
    dsimp only
    split
    · rename_i args here
      have names := sound.names
      rw [here] at knows names
      cases found with
      | error e => exact follow_settled sound settled (receiptAnswered_lost s.store) subset_rfl fun a after ran => absurd ran (receiptAnswered_throws)
      | ok _ =>
        refine follow_settled sound settled (receiptAnswered_final names) (fun _ inside => inside.1) fun _ after _ fewer key inside same => ?_
        have before := fewer inside
        exact before.2 (knows key before.1 same)
    · exact settled
  | complete newRef facts parsed rest =>
    unfold step
    dsimp only
    split
    · exact follow_settled sound settled (completeFablesJob_rests s.store) subset_rfl fun _ _ _ _ => trivial
    · exact settled
  | stageThrows code =>
    unfold step
    dsimp only
    split
    · exact ⟨settled.single, trivial⟩
    · exact settled
  | stopSteps =>
    unfold step
    dsimp only
    split
    · exact ⟨settled.single, trivial⟩
    · exact settled
  | attend =>
    unfold step
    dsimp only
    split
    · exact follow_settled sound settled (fablesAttention_rests s.store) subset_rfl fun _ _ _ _ => trivial
    · exact settled
  | startRebroadcast id ordinal =>
    have advance := @rebroadcastChecks_rests chain env id ordinal s.store sound.recorded s.store rfl
    unfold step
    dsimp only
    split
    · rename_i ran
      rw [ran] at advance
      exact ⟨single_mono settled.single advance.unresolved, knows.mono advance.unresolved⟩
    · rename_i ran
      rw [ran] at advance
      exact ⟨single_mono settled.single advance.unresolved, knows.mono advance.unresolved⟩
  | rebroadcastReturned id ordinal hash returned =>
    unfold step
    dsimp only
    split
    · rename_i inFlight
      have fewer := rebroadcast_settled sound inFlight timely
      exact ⟨single_mono settled.single fewer, knows.mono fewer⟩
    · exact settled
  | resume id =>
    have advance : Still chain s.store (left (resumeFablesJob id) s.store) := left_keeps (resumeFablesJob_rests s.store sound.recorded) rfl
    exact ⟨single_mono settled.single advance.unresolved, knows.mono advance.unresolved⟩
  | crash => exact restarted_settled chain settled subset_rfl

def gasAmounts (store : FablesStore) (jobId : JobId) (hash : Hash) : List ℤ :=
  (store.ledger.filter fun entry => entry.jobId = jobId && entry.txHash = hash && entry.kind = .gas).map (·.amount)

theorem eq_singleton_of_pairwise {ι : Type} {apart : ι → ι → Prop} {rows : List ι} {row : ι} (distinct : rows.Pairwise apart)
    (clash : ∀ first ∈ rows, ∀ second ∈ rows, ¬ apart first second) (member : row ∈ rows) : rows = [row] := by
  cases rows with
  | nil => cases member
  | cons first rest =>
    cases rest with
    | nil => rw [List.mem_singleton.mp member]
    | cons second rest =>
      have apart := (List.pairwise_cons.mp distinct).1 second List.mem_cons_self
      exact absurd apart (clash first List.mem_cons_self second (List.mem_cons_of_mem _ List.mem_cons_self))

theorem gasAmounts_single {store : FablesStore} {tx : FablesJobTx} (recorded : Recorded chain store)
    (present : HasGas job tx store.ledger) : gasAmounts store job.id tx.hash = [((chain tx.hash).facts.cost : ℤ)] := by
  obtain ⟨entry, member, own, hash, kind⟩ := present
  have keys : ∀ row ∈ store.ledger.filter (fun entry => entry.jobId = job.id && entry.txHash = tx.hash && entry.kind = .gas),
      row ∈ store.ledger ∧ row.jobId = job.id ∧ row.txHash = tx.hash ∧ row.kind = .gas := by
    intro row found
    obtain ⟨inside, keys⟩ := List.mem_filter.mp found
    simp only [Bool.and_eq_true, decide_eq_true_eq] at keys
    exact ⟨inside, keys.1.1, keys.1.2, keys.2⟩
  have single : store.ledger.filter (fun entry => entry.jobId = job.id && entry.txHash = tx.hash && entry.kind = .gas) = [entry] := by
    refine eq_singleton_of_pairwise (recorded.once.sublist List.filter_sublist) (fun first left second right apart => ?_)
      (List.mem_filter.mpr ⟨member, by rw [own, hash, kind]; simp⟩)
    obtain ⟨inside, ownFirst, hashFirst, kindFirst⟩ := keys first left
    obtain ⟨insideSecond, ownSecond, hashSecond, kindSecond⟩ := keys second right
    have token := (recorded.gas first inside kindFirst).1
    have tokenSecond := (recorded.gas second insideSecond kindSecond).1
    have same : second.sameFact first := sameFact_iff.mpr ⟨ownSecond.trans ownFirst.symm, hashSecond.trans hashFirst.symm,
      kindSecond.trans kindFirst.symm, tokenSecond.trans token.symm⟩
    rw [apart] at same
    cases same
  unfold gasAmounts
  rw [single, List.map_singleton, (recorded.gas entry member kind).2, hash]

theorem reconciled_hasGas {unresolved : Nat} {goes : Bool}
    {start after : FablesStore} (recorded : Recorded chain start) (ran : (reconciled job unresolved alive).run start = (.ok goes, after)) :
    ∀ tx ∈ fablesJobTransactions start job.id, tx.state.unresolved = false → HasGas job tx after.ledger := by
  obtain ⟨verdict, rests, splits⟩ := reconciled_splits chain job unresolved alive
  rw [splits] at ran
  obtain ⟨_, _, told, ran⟩ := bind_returns ran
  cases told
  obtain ⟨_, middle, rebuilt, ran⟩ := bind_returns ran
  have kept := @rebuildGas_does chain job alive _ (fablesJobTransactions_known recorded job.id) start recorded start rfl
  rw [rebuilt] at kept
  obtain ⟨_, _, present⟩ := rebuildGas_returns rebuilt
  have grows := rests middle (kept.recorded recorded) middle rfl
  rw [ran] at grows
  intro tx member closed
  obtain ⟨entry, inside, facts⟩ := present tx member closed
  exact ⟨entry, grows.ledger.subset inside, facts⟩

theorem moved_run (sound : Sound chain s) (events : List Event) :
    Sound chain (run (step env chain) s events) ∧ s.store.ledger <+: (run (step env chain) s events).store.ledger := by
  have each : ∀ t event, Sound chain t ∧ s.store.ledger <+: t.store.ledger →
      Sound chain (step env chain t event) ∧ s.store.ledger <+: (step env chain t event).store.ledger := by
    intro t event ⟨sound, grows⟩
    have moved : Moved chain t (step env chain t event) := step_moved sound event
    exact ⟨moved.sound, grows.trans moved.ledger⟩
  exact run_keeps_all each ⟨sound, List.prefix_rfl⟩ events

theorem settled_run (sound : Sound chain s) (settled : Settled s) {events : List Event}
    (timely : Along (step env chain) (fun s event => lateRebroadcast s event = false) s events) :
    Sound chain (run (step env chain) s events) ∧ Settled (run (step env chain) s events) := by
  have each : ∀ t event, Sound chain t ∧ Settled t → lateRebroadcast t event = false →
      Sound chain (step env chain t event) ∧ Settled (step env chain t event) :=
    fun t event ⟨sound, settled⟩ timely => ⟨(step_moved sound event).sound, step_settled sound settled timely⟩
  exact run_keeps each ⟨sound, settled⟩ timely

structure JournalHolds (env : SignerEnv) (chain : Hash → FablesReceipt) (s : Runtime) : Prop where
  single : ∀ first ∈ s.store.transactions.rows, ∀ second ∈ s.store.transactions.rows, first.state.unresolved → second.state.unresolved →
    first.jobId = second.jobId → first.stage = second.stage → first = second
  /-- A row that any step adds finds the earlier rows of its job resolved. -/
  signs : ∀ event, ∀ tx ∈ (step env chain s event).store.transactions.rows, s.store.transactions.get? tx.key = none →
    ∀ earlier ∈ s.store.transactions.rows, earlier.jobId = tx.jobId → earlier.state.unresolved = false
  /-- From the end of a reconciliation on, its final transactions have one gas row each. -/
  gas : ∀ job unresolved alive goes after, s.runner = .reconciling job [] unresolved →
    (reconciled job unresolved alive).run s.store = (.ok goes, after) →
    ∀ tx ∈ fablesJobTransactions s.store job.id, tx.state.unresolved = false → ∀ later,
      gasAmounts (run (step env chain) (step env chain s (.finishReconciliation alive)) later).store job.id tx.hash
        = [((chain tx.hash).facts.cost : ℤ)]
  completes : ∀ id newRef facts parsed rest outcome after, (completeFablesJob id newRef facts parsed rest).run s.store = (outcome, after) →
    (∃ e, outcome = .error e ∧ after = s.store) ∨
      ∃ job row, s.store.jobs.get? id = some job ∧ s.store.strategies.get? job.strategyId = some row ∧
        outcome = .ok { row.config with positionRef := newRef, revision := row.config.revision + 1 } ∧
        after.strategies = s.store.strategies.put
          { config := { row.config with positionRef := newRef, revision := row.config.revision + 1 }, state := .monitoring } ∧
        after.jobs = s.store.jobs.put { job with state := .completed, errorCode := none } ∧
        after.transactions = s.store.transactions ∧
        (∀ fact ∈ facts, ∃ entry ∈ after.ledger, (fact.entry job).sameFact entry) ∧
        ((facts.map (FablesCycleFact.entry job)).Pairwise (fun first second => second.sameFact first = false) →
          after.ledger = s.store.ledger ++ facts.map (FablesCycleFact.entry job))

theorem single_rows (settled : Settled s) : ∀ first ∈ s.store.transactions.rows, ∀ second ∈ s.store.transactions.rows,
    first.state.unresolved → second.state.unresolved → first.jobId = second.jobId → first = second := by
  intro first left second right opened openedToo same
  exact Table.eq_of_key left right (settled.single first.key ⟨first, left, opened, rfl⟩ second.key ⟨second, right, openedToo, rfl⟩ same)

theorem signs_alone (sound : Sound chain s) (settled : Settled s) (event : Event) {tx : FablesJobTx}
    (signed : tx ∈ (step env chain s event).store.transactions.rows) (fresh : s.store.transactions.get? tx.key = none) :
    ∀ earlier ∈ s.store.transactions.rows, earlier.jobId = tx.jobId → earlier.state.unresolved = false := by
  intro earlier member own
  have moved : Moved chain s (step env chain s event) := step_moved sound event
  rcases moved.added (tx.key, tx.hash) ⟨tx, signed, rfl⟩ with ⟨row, old, same⟩ | ⟨id, stepping, here⟩
  · have key : row.key = tx.key := congrArg Prod.fst same
    have found := Table.get?_of_mem old
    rw [key, fresh] at found
    cases found
  · have knows := settled.runner
    rw [stepping] at knows
    exact Bool.eq_false_iff.mpr fun opened => knows earlier.key ⟨earlier, member, opened, rfl⟩ (own.trans here)

theorem gas_once (sound : Sound chain s) {unresolved : Nat} {goes : Bool}
    {after : FablesStore} (waits : s.runner = .reconciling job [] unresolved)
    (ran : (reconciled job unresolved alive).run s.store = (.ok goes, after)) {tx : FablesJobTx}
    (member : tx ∈ fablesJobTransactions s.store job.id) (closed : tx.state.unresolved = false) (later : List Event) :
    gasAmounts (run (step env chain) (step env chain s (.finishReconciliation alive)) later).store job.id tx.hash
      = [((chain tx.hash).facts.cost : ℤ)] := by
  have reached : (step env chain s (.finishReconciliation alive)).store = after := by
    unfold step
    dsimp only
    rw [waits]
    unfold Runtime.follow
    dsimp only
    rw [ran]
  obtain ⟨entry, inside, facts⟩ := reconciled_hasGas sound.recorded ran tx member closed
  have moved : Moved chain s (step env chain s (.finishReconciliation alive)) := step_moved sound _
  obtain ⟨soundLater, grows⟩ := @moved_run env chain _ moved.sound later
  rw [reached] at grows
  exact gasAmounts_single soundLater.recorded ⟨entry, grows.subset inside, facts⟩

theorem completes_whole (recorded : Recorded chain s.store) {newRef : FablesPositionRef} {facts : List FablesCycleFact}
    {parsed rest : Except FablesError Unit} {outcome : Except FablesError FablesConfig} {after : FablesStore}
    (ran : (completeFablesJob id newRef facts parsed rest).run s.store = (outcome, after)) :
    (∃ e, outcome = .error e ∧ after = s.store) ∨
      ∃ job row, s.store.jobs.get? id = some job ∧ s.store.strategies.get? job.strategyId = some row ∧
        outcome = .ok { row.config with positionRef := newRef, revision := row.config.revision + 1 } ∧
        after.strategies = s.store.strategies.put
          { config := { row.config with positionRef := newRef, revision := row.config.revision + 1 }, state := .monitoring } ∧
        after.jobs = s.store.jobs.put { job with state := .completed, errorCode := none } ∧
        after.transactions = s.store.transactions ∧
        (∀ fact ∈ facts, ∃ entry ∈ after.ledger, (fact.entry job).sameFact entry) ∧
        ((facts.map (FablesCycleFact.entry job)).Pairwise (fun first second => second.sameFact first = false) →
          after.ledger = s.store.ledger ++ facts.map (FablesCycleFact.entry job)) := by
  rcases completeFablesJob_atomic ran with failed | ⟨job, row, read, state, found, told, written⟩
  · exact Or.inl failed
  have fresh : ∀ entry ∈ facts.map (FablesCycleFact.entry job), ∀ old ∈ s.store.ledger, entry.sameFact old = false := by
    intro entry member old inside
    obtain ⟨fact, _, rfl⟩ := List.mem_map.mp member
    refine Bool.eq_false_iff.mpr fun same => ?_
    obtain ⟨own, _, kind, _⟩ := sameFact_iff.mp same
    -- a cycle row of the job would mean that the job is completed already
    obtain ⟨other, present, named, completed⟩ := recorded.cycles old inside (by rw [← kind]; exact nofun)
    have equal : other = job := Table.eq_of_key present (Table.get?_mem read) (named.trans own.symm)
    rw [equal] at completed
    rcases state with running | recovery
    · cases completed.symm.trans running
    · cases completed.symm.trans recovery
  subst written
  refine Or.inr ⟨job, row, read, found, told, rfl, rfl, rfl, fun fact member => ?_, fun apart => foldl_insertFact_fresh fresh apart⟩
  obtain ⟨_, _, present⟩ := @foldl_insertFact s.store.ledger (facts.map (FablesCycleFact.entry job)) recorded.once
  exact present _ (List.mem_map_of_mem member)

/-- In every run in which no answer to a rebroadcast is stored over a final receipt, the journal holds in
every state reached. -/
theorem journal_run {s : Runtime} (events : List Event) (empty : s.store.transactions.rows = [] ∧ s.store.ledger = [] ∧ s.runner = .idle)
    (timely : Along (step env chain) (fun s event => lateRebroadcast s event = false) s events) :
    JournalHolds env chain (run (step env chain) s events) := by
  obtain ⟨noRows, noLedger, idle⟩ := empty
  have sound : Sound chain s := by
    refine ⟨⟨?_, ?_, ?_, ?_, ?_⟩, by rw [idle]; trivial⟩ <;> simp [noRows, noLedger]
  have settled : Settled s := by
    refine ⟨?_, by rw [idle]; trivial⟩
    rintro first ⟨tx, member, _⟩
    rw [noRows] at member
    cases member
  obtain ⟨sound, settled⟩ := settled_run sound settled timely
  exact ⟨fun first left second right opened openedToo same _ => single_rows settled first left second right opened openedToo same,
    fun event tx signed fresh => signs_alone sound settled event signed fresh,
    fun job unresolved alive goes after waits ran tx member closed later => gas_once sound waits ran member closed later,
    fun id newRef facts parsed rest outcome after ran => completes_whole sound.recorded ran⟩

def journalConfig : FablesConfig where
  id := 3
  owner := 77
  enabled := true
  executorAuto := true
  walletId := some 9
  signerAddress := some 77
  positionRef := ⟨500, 600, 700, -10, 10⟩
  revision := 1
  settings := 0

def plannedJob : Runtime where
  store := ⟨Table.empty.put ⟨journalConfig, .executing⟩,
    Table.empty.put { id := 1, strategyId := 3, walletId := 9, config := journalConfig, state := .planned, stage := .precheck },
    Table.empty, []⟩

def journalEnv : SignerEnv := ⟨false, fun pool => pool = 500, 77⟩

def journalChain (hash : Hash) : FablesReceipt :=
  ⟨if hash = 11 then .reverted else .success, ⟨100 + hash, 20, 3⟩⟩

def rebroadcastRun : List Event :=
  [.takeJob 1, .finishReconciliation fun _ => .ok (), .progress (some .exit) none, .sign .exit 11 (.ok 0),
    .broadcastReturned (.error .transport), .attend, .startRebroadcast 1 0]

def recoveredRun : List Event :=
  rebroadcastRun ++
    [.rebroadcastReturned 1 0 11 (.ok 11), .takeJob 1, .readReceipt .deep, .finishReconciliation fun _ => .ok (), .resume 1,
      .takeJob 1, .finishReconciliation fun _ => .ok (), .sign .exit 12 (.ok 1), .broadcastReturned (.ok 12),
      .receiptReturned (.ok ()) (.error .crashed), .takeJob 1, .finishReconciliation fun _ => .ok (), .progress (some .verify) none,
      .complete ⟨500, 600, 701, -20, 0⟩ [⟨.principalExited, 5, 40, 12, 112⟩] (.ok ()) (.ok ())]

theorem journal_run_recovers :
    let done := run (step journalEnv journalChain) plannedJob recoveredRun
    (done.store.jobs.get? 1).map (·.state) = some .completed ∧ gasAmounts done.store 1 11 = [60] ∧ gasAmounts done.store 1 12 = [60] ∧
      JournalHolds journalEnv journalChain done :=
  ⟨by decide, by decide, by decide,
    journal_run recoveredRun ⟨rfl, rfl, rfl⟩ (by decide)⟩

/-- The answer to the rebroadcast arrives when the transaction has reverted, was reviewed, and the runner has signed
the stage again. -/
theorem journal_signs_twice :
    let signed := run (step journalEnv journalChain) plannedJob (rebroadcastRun ++
      [.takeJob 1, .readReceipt .deep, .finishReconciliation fun _ => .ok (), .resume 1, .takeJob 1,
        .finishReconciliation fun _ => .ok (), .sign .exit 12 (.ok 1), .rebroadcastReturned 1 0 11 (.ok 11)])
    ∃ first ∈ signed.store.transactions.rows, ∃ second ∈ signed.store.transactions.rows,
      first.jobId = second.jobId ∧ first.stage = second.stage ∧ first.state.unresolved ∧ second.state.unresolved ∧ first ≠ second := by
  decide

/-- In every run, the answers that come late among them: each fact is booked once, at what the chain says, and for good. -/
theorem ledger_append_only {s : Runtime} (events later : List Event)
    (empty : s.store.transactions.rows = [] ∧ s.store.ledger = [] ∧ s.runner = .idle) :
    let world := run (step env chain) s events
    Recorded chain world.store ∧ world.store.ledger <+: (run (step env chain) world later).store.ledger := by
  obtain ⟨noRows, noLedger, idle⟩ := empty
  have sound : Sound chain s := by
    refine ⟨⟨?_, ?_, ?_, ?_, ?_⟩, by rw [idle]; trivial⟩ <;> simp [noRows, noLedger]
  have reached := (@moved_run env chain s sound events).1
  exact ⟨reached.recorded, (moved_run reached later).2⟩

theorem ledger_append_only_recovered :
    let world := run (step journalEnv journalChain) plannedJob rebroadcastRun
    Recorded journalChain world.store ∧ world.store.ledger <+: (run (step journalEnv journalChain) world recoveredRun).store.ledger :=
  ledger_append_only rebroadcastRun recoveredRun ⟨rfl, rfl, rfl⟩

end LpTerminal.Fables
