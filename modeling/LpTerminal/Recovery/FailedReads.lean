import LpTerminal.Recovery.Classify

/-!
What a failed read can do to the verdict on a transaction that succeeded on chain.
-/

namespace LpTerminal.Recovery

open Store

variable {row : JobTransaction} {fact : RecoveryTxFact}

section
variable (keccak256 : Calldata → Hash) (rpc : Rpc) (journal : Journal) (owner : Address)

def succeeded (row : JobTransaction) : Bool :=
  match row.txHash with
  | none => false
  | some hash =>
    match rpc.receipts hash, rpc.transactions hash with
    | some receipt, some transaction => receipt.status = .success && matchesRow keccak256 owner transaction row
    | _, _ => false

def SameSlot (fact : RecoveryTxFact) (row : JobTransaction) : Prop :=
  fact.stepIndex = row.stepIndex ∧ fact.txIndex = row.txIndex

/-- The row's own reads fail twice, its nonce is recorded, and the account has moved past it (or has not
reached it, or another local transaction provably took it). -/
def Misread (row : JobTransaction) : Prop :=
  (rpc.fails (.receipt row.key) = true ∨ rpc.fails (.transaction row.key) = true) ∧
    rpc.fails (.recheck row.key) = true ∧
    ∃ nonce, row.nonce = some nonce ∧
      (nonce < rpc.latestCount owner ∨ rpc.pendingCount owner ≤ nonce ∨
        hasConfirmedLocalReplacement keccak256 rpc journal owner row nonce = true)

variable {keccak256 rpc journal owner}

theorem succeeded_iff :
    succeeded keccak256 rpc owner row = true ↔ ∃ hash receipt transaction, row.txHash = some hash ∧
      rpc.receipts hash = some receipt ∧ rpc.transactions hash = some transaction ∧
      receipt.status = .success ∧ matchesRow keccak256 owner transaction row = true := by
  unfold succeeded
  constructor
  · intro success
    split at success
    · cases success
    · rename_i hash recorded
      split at success
      · rename_i receipt transaction mined sent
        simp only [Bool.and_eq_true, decide_eq_true_eq] at success
        exact ⟨hash, receipt, transaction, recorded, mined, sent, success.1, success.2⟩
      · cases success
  · rintro ⟨hash, receipt, transaction, recorded, mined, sent, status, same⟩
    simp [recorded, mined, sent, status, same]

theorem missingTransaction_state {nonce : Nat} {state : RecoveryTxState}
    (read : missingTransaction keccak256 rpc journal owner row nonce = .ok state) :
    (state = .absent ∧ (nonce < rpc.latestCount owner ∨ rpc.pendingCount owner ≤ nonce ∨
        hasConfirmedLocalReplacement keccak256 rpc journal owner row nonce = true)) ∨
      (state = .ambiguous ∧ ¬ (nonce < rpc.latestCount owner ∨ rpc.pendingCount owner ≤ nonce ∨
        hasConfirmedLocalReplacement keccak256 rpc journal owner row nonce = true)) := by
  unfold missingTransaction Rpc.getTransactionCounts at read
  split at read
  · cases read
  · injection read with decided
    by_cases gone : nonce < rpc.latestCount owner ∨ rpc.pendingCount owner ≤ nonce
    · left
      refine ⟨?_, by tauto⟩
      rw [← decided]
      exact classifyMissingTransactionNonce_absent.mpr (by tauto)
    · have between : rpc.latestCount owner ≤ nonce ∧ rpc.pendingCount owner > nonce := by omega
      simp only [between, and_self, if_true] at decided
      cases replaced : hasConfirmedLocalReplacement keccak256 rpc journal owner row nonce with
      | true =>
        left
        rw [replaced] at decided
        exact ⟨decided ▸ classifyMissingTransactionNonce_absent.mpr (by simp), by simp⟩
      | false =>
        right
        rw [replaced] at decided
        refine ⟨?_, by simpa using gone⟩
        rw [← decided]
        unfold classifyMissingTransactionNonce
        rw [if_neg (by omega), if_neg (by omega)]
        rfl

theorem missingFact_state {unknown : RecoveryTxState}
    (read : missingFact keccak256 rpc journal owner row unknown = .ok fact) :
    ∃ state, fact = factOf row state none ∧
      ((row.nonce = none ∧ state = unknown) ∨
        ∃ nonce, row.nonce = some nonce ∧ missingTransaction keccak256 rpc journal owner row nonce = .ok state) := by
  unfold missingFact at read
  split at read
  · rename_i noNonce
    cases read
    exact ⟨unknown, rfl, Or.inl ⟨noNonce, rfl⟩⟩
  · rename_i nonce known
    obtain ⟨state, missing, read⟩ := Fallible.bind_ok read
    cases read
    exact ⟨state, rfl, Or.inr ⟨nonce, known, missing⟩⟩

theorem missingFact_unconfirmed {unknown : RecoveryTxState}
    (undecided : unknown ≠ .confirmed) (read : missingFact keccak256 rpc journal owner row unknown = .ok fact) :
    fact.state ≠ .confirmed := by
  obtain ⟨state, rfl, ⟨_, rfl⟩ | ⟨nonce, _, missing⟩⟩ := missingFact_state read
  · exact undecided
  · rcases missingTransaction_state missing with ⟨rfl, _⟩ | ⟨rfl, _⟩ <;> simp [factOf]

theorem unreadFact_unconfirmed {hash : Hash}
    (read : unreadFact keccak256 rpc journal owner row hash = .ok fact) : fact.state ≠ .confirmed := by
  unfold unreadFact at read
  split at read
  · cases read; simp [factOf]
  · exact missingFact_unconfirmed (by decide) read

theorem transactionFact_slot
    (read : transactionFact keccak256 rpc journal owner row = .ok fact) : SameSlot fact row := by
  have missing : ∀ {unknown}, missingFact keccak256 rpc journal owner row unknown = .ok fact → SameSlot fact row := by
    intro unknown read
    obtain ⟨state, rfl, _⟩ := missingFact_state read
    exact ⟨rfl, rfl⟩
  unfold transactionFact unreadFact at read
  split at read
  · split at read
    · split at read <;> (cases read; exact ⟨rfl, rfl⟩)
    · split at read
      · cases read; exact ⟨rfl, rfl⟩
      · exact missing read
  · exact missing read

theorem transactionFact_confirmed
    (read : transactionFact keccak256 rpc journal owner row = .ok fact) (confirmed : fact.state = .confirmed) :
    succeeded keccak256 rpc owner row = true := by
  unfold transactionFact at read
  split at read
  · rename_i hash recorded
    split at read
    · rename_i receipt transaction mined sent
      split at read
      · cases read; cases confirmed
      · rename_i same
        cases read
        refine succeeded_iff.mpr ⟨hash, receipt, transaction, recorded, ?_, ?_, ?_, by simpa using same⟩
        · unfold Rpc.getTransactionReceipt at mined
          split at mined
          · cases mined
          · exact mined
        · unfold Rpc.getTransaction at sent
          split at sent
          · cases sent
          · exact sent
        · by_contra failed
          simp [factOf, failed] at confirmed
    · exact absurd confirmed (unreadFact_unconfirmed read)
  · exact absurd confirmed (missingFact_unconfirmed (by decide) read)

theorem unreadFact_succeeded {hash : Hash} {transaction : Transaction}
    (sent : rpc.transactions hash = some transaction)
    (first : rpc.fails (.receipt row.key) = true ∨ rpc.fails (.transaction row.key) = true)
    (read : unreadFact keccak256 rpc journal owner row hash = .ok fact) :
    fact.state ≠ .reverted ∧ (fact.state = .absent ↔ Misread keccak256 rpc journal owner row) := by
  unfold unreadFact Rpc.getTransaction at read
  cases recheck : rpc.fails (.recheck row.key) with
  | false =>
    simp only [recheck, Bool.false_eq_true, if_false, sent] at read
    cases read
    simp [factOf, Misread, recheck]
  | true =>
    simp only [recheck, if_true] at read
    obtain ⟨state, rfl, ⟨unknown, rfl⟩ | ⟨nonce, known, missing⟩⟩ := missingFact_state read
    · simp [factOf, Misread, unknown]
    · rcases missingTransaction_state missing with ⟨rfl, cause⟩ | ⟨rfl, cause⟩
      · exact ⟨by simp [factOf], fun _ => ⟨first, recheck, nonce, known, cause⟩, fun _ => rfl⟩
      · refine ⟨by simp [factOf], fun absent => (nomatch absent), ?_⟩
        rintro ⟨_, _, other, same, misread⟩
        cases known.symm.trans same
        exact absurd misread cause

theorem transactionFact_succeeded
    (success : succeeded keccak256 rpc owner row = true)
    (read : transactionFact keccak256 rpc journal owner row = .ok fact) :
    fact.state ≠ .reverted ∧ (fact.state = .absent ↔ Misread keccak256 rpc journal owner row) := by
  obtain ⟨hash, receipt, transaction, recorded, mined, sent, status, same⟩ := succeeded_iff.mp success
  by_cases first : rpc.fails (.receipt row.key) = true ∨ rpc.fails (.transaction row.key) = true
  · have unread : transactionFact keccak256 rpc journal owner row = unreadFact keccak256 rpc journal owner row hash := by
      rcases first with failed | failed
      · simp [transactionFact, recorded, Rpc.getTransactionReceipt, failed]
      · simp only [transactionFact, recorded, Rpc.getTransaction, failed, if_true]
        split <;> first | rfl | (rename_i none; cases none)
    exact unreadFact_succeeded sent first (unread ▸ read)
  · have clear := not_or.mp first
    simp only [transactionFact, recorded, Rpc.getTransactionReceipt, Rpc.getTransaction, mined, sent, clear.1, clear.2,
      if_false, same, Bool.not_true, Bool.false_eq_true, status, if_true] at read
    cases read
    exact ⟨by simp [factOf], fun absent => (nomatch absent), fun misread => absurd misread.1 first⟩

end

def Settled (facts : List RecoveryTxFact) : Prop :=
  ∀ fact ∈ facts, fact.state ≠ .ambiguous ∧ fact.state ≠ .pending

def ConfirmedAt (facts : List RecoveryTxFact) (stepIndex : Nat) : Prop :=
  ∃ fact ∈ facts, fact.state = .confirmed ∧ fact.stepIndex = stepIndex

theorem classifyRecovery_unsettled {facts : List RecoveryTxFact} (confirmedSteps : List Nat)
    (unsettled : ¬ Settled facts) :
    classifyRecovery facts confirmedSteps = .manualReview ∨ classifyRecovery facts confirmedSteps = .waitPending := by
  simp only [Settled, not_forall, not_and_or, not_not] at unsettled
  obtain ⟨fact, member, state⟩ := unsettled
  unfold classifyRecovery
  split
  · exact Or.inl rfl
  · rename_i unambiguous
    rcases state with ambiguous | pending
    · exact absurd (List.any_eq_true.mpr ⟨fact, member, by simpa using ambiguous⟩) unambiguous
    · have waits : facts.any (·.state = .pending) = true := List.any_eq_true.mpr ⟨fact, member, by simpa using pending⟩
      rw [if_pos waits]
      exact Or.inr rfl

theorem classifyRecovery_congr {left right : List RecoveryTxFact} {confirmedSteps : List Nat}
    (leftSettled : Settled left) (rightSettled : Settled right)
    (same : ∀ stepIndex, ConfirmedAt left stepIndex ↔ ConfirmedAt right stepIndex) :
    classifyRecovery left confirmedSteps = classifyRecovery right confirmedSteps := by
  have unambiguous : ∀ facts, Settled facts → facts.any (·.state = .ambiguous) = false := by
    intro facts settled
    simpa using fun fact member => (settled fact member).1
  have decided : ∀ facts, Settled facts → facts.any (·.state = .pending) = false := by
    intro facts settled
    simpa using fun fact member => (settled fact member).2
  have confirmedAny : ∀ holds : Nat → Bool, (left.filter (·.state = .confirmed)).any (holds ·.stepIndex) =
      (right.filter (·.state = .confirmed)).any (holds ·.stepIndex) := by
    intro holds
    have transfer : ∀ {first second : List RecoveryTxFact}, (∀ stepIndex, ConfirmedAt first stepIndex → ConfirmedAt second stepIndex) →
        (first.filter (·.state = .confirmed)).any (holds ·.stepIndex) = true →
        (second.filter (·.state = .confirmed)).any (holds ·.stepIndex) = true := by
      intro first second carry found
      obtain ⟨fact, member, here⟩ := List.any_eq_true.mp found
      simp only [List.mem_filter, decide_eq_true_eq] at member
      obtain ⟨other, otherMember, confirmed, step⟩ := carry fact.stepIndex ⟨fact, member.1, member.2, rfl⟩
      exact List.any_eq_true.mpr ⟨other, by simp [otherMember, confirmed], by rw [step]; exact here⟩
    exact Bool.eq_iff_iff.mpr ⟨transfer fun stepIndex => (same stepIndex).mp, transfer fun stepIndex => (same stepIndex).mpr⟩
  unfold classifyRecovery
  rw [unambiguous left leftSettled, unambiguous right rightSettled, decided left leftSettled, decided right rightSettled]
  simp only [confirmedAny fun stepIndex => stepIndex = 8, confirmedAny fun stepIndex => stepIndex = 1,
    confirmedAny fun stepIndex => 2 ≤ stepIndex && stepIndex ≤ 7,
    confirmedAny fun stepIndex => 12 ≤ stepIndex && stepIndex ≤ 14]

theorem reconcileFact_keeps {jobId : JobId} {journal : Journal}
    (own : row.jobId = jobId) (safe : SameSlot fact row → fact.state ≠ .absent ∧ fact.state ≠ .reverted)
    (before : ∀ row', journal.get? row.key = some row' → row'.state = .failed → row' = row) :
    ∀ row', (reconcileFact jobId journal fact).get? row.key = some row' → row'.state = .failed → row' = row := by
  by_cases slot : SameSlot fact row
  · obtain ⟨notAbsent, notReverted⟩ := safe slot
    have key : row.key = slotKey jobId fact.stepIndex fact.txIndex := by
      rw [JobTransaction.key, own, slot.1, slot.2]
    unfold reconcileFact
    split
    · intro row' read failed
      rw [key, reconcileJobTransaction_get?] at read
      obtain ⟨old, _, rfl⟩ := Option.map_eq_some_iff.mp read
      cases failed
    · rename_i reverted; exact absurd reverted notReverted
    · rename_i absent; exact absurd absent notAbsent
    · exact before
    · exact before
  · have key : row.key ≠ slotKey jobId fact.stepIndex fact.txIndex := by
      intro same
      obtain ⟨_, stepIndex, txIndex⟩ := slotKey_inj.mp same
      exact slot ⟨stepIndex.symm, txIndex.symm⟩
    have frame : (reconcileFact jobId journal fact).get? row.key = journal.get? row.key := by
      unfold reconcileFact
      split <;> first | rfl | exact reconcileJobTransaction_frame key
    rw [frame]
    exact before

theorem reconcileFacts_keep {jobId : JobId} {journal : Journal} {facts : List RecoveryTxFact}
    (own : row.jobId = jobId)
    (safe : ∀ fact ∈ facts, SameSlot fact row → fact.state ≠ .absent ∧ fact.state ≠ .reverted)
    (before : ∀ row', journal.get? row.key = some row' → row'.state = .failed → row' = row) :
    ∀ row', (facts.foldl (reconcileFact jobId) journal).get? row.key = some row' → row'.state = .failed → row' = row := by
  induction facts generalizing journal with
  | nil => exact before
  | cons fact rest ih =>
    have first := reconcileFact_keeps own (safe fact List.mem_cons_self) before
    exact ih (fun later member => safe later (List.mem_cons_of_mem _ member)) first

section
variable (keccak256 : Calldata → Hash) (rpc : Rpc) (journal : Journal) (owner : Address) (jobId : JobId)

def RowsRespected (transactions : List RecoveryTxFact) (rewritten : Journal) : Prop :=
  ∀ row ∈ jobTransactions journal jobId, succeeded keccak256 rpc owner row = true →
    (∀ fact ∈ transactions, SameSlot fact row → fact.state ≠ .absent ∧ fact.state ≠ .reverted) ∧
      ∀ row', rewritten.get? row.key = some row' → row'.state = .failed → row' = row

def trueReceipts : List RecoveryTxFact :=
  ((jobTransactions journal jobId).filter (succeeded keccak256 rpc owner)).map (factOf · .confirmed none)

def DispositionRespected (transactions : List RecoveryTxFact) : Prop :=
  ∀ confirmedSteps, classifyRecovery transactions confirmedSteps = .manualReview ∨
    classifyRecovery transactions confirmedSteps = .waitPending ∨
    classifyRecovery transactions confirmedSteps =
      classifyRecovery (trueReceipts keccak256 rpc journal owner jobId) confirmedSteps

variable {keccak256 rpc journal owner jobId}

theorem mem_jobTransactions :
    row ∈ jobTransactions journal jobId ↔ row ∈ journal.rows ∧ row.jobId = jobId := by
  simp [jobTransactions]

theorem trueReceipts_settled : Settled (trueReceipts keccak256 rpc journal owner jobId) := by
  intro fact member
  obtain ⟨row, _, rfl⟩ := List.mem_map.mp member
  exact ⟨by simp [factOf], by simp [factOf]⟩

theorem trueReceipts_confirmed {stepIndex : Nat} :
    ConfirmedAt (trueReceipts keccak256 rpc journal owner jobId) stepIndex ↔
      ∃ row ∈ jobTransactions journal jobId, succeeded keccak256 rpc owner row = true ∧ row.stepIndex = stepIndex := by
  constructor
  · rintro ⟨fact, member, _, rfl⟩
    obtain ⟨row, found, rfl⟩ := List.mem_map.mp member
    obtain ⟨present, success⟩ := List.mem_filter.mp found
    exact ⟨row, present, success, rfl⟩
  · rintro ⟨row, present, success, rfl⟩
    exact ⟨factOf row .confirmed none, List.mem_map.mpr ⟨row, List.mem_filter.mpr ⟨present, success⟩, rfl⟩, rfl, rfl⟩

theorem fact_of_slot {transactions : List RecoveryTxFact}
    (facts : List.Forall₂ (fun row fact => transactionFact keccak256 rpc journal owner row = .ok fact)
      (jobTransactions journal jobId) transactions)
    (present : row ∈ jobTransactions journal jobId) (member : fact ∈ transactions) (slot : SameSlot fact row) :
    transactionFact keccak256 rpc journal owner row = .ok fact := by
  obtain ⟨source, found, read⟩ := Fallible.exists_item facts member
  obtain ⟨sourceIn, sourceJob⟩ := mem_jobTransactions.mp found
  obtain ⟨rowIn, rowJob⟩ := mem_jobTransactions.mp present
  have sourceSlot := transactionFact_slot read
  have sameKey : source.key = row.key :=
    slotKey_inj.mpr ⟨sourceJob.trans rowJob.symm, sourceSlot.1.symm.trans slot.1, sourceSlot.2.symm.trans slot.2⟩
  rwa [Table.eq_of_key sourceIn rowIn sameKey] at read

theorem dispositionRespected_of_safe {transactions : List RecoveryTxFact}
    (facts : List.Forall₂ (fun row fact => transactionFact keccak256 rpc journal owner row = .ok fact)
      (jobTransactions journal jobId) transactions)
    (safe : ∀ row ∈ jobTransactions journal jobId, succeeded keccak256 rpc owner row = true →
      ¬ Misread keccak256 rpc journal owner row) :
    DispositionRespected keccak256 rpc journal owner jobId transactions := by
  intro confirmedSteps
  by_cases settled : Settled transactions
  · right; right
    refine classifyRecovery_congr settled trueReceipts_settled fun stepIndex => ?_
    rw [trueReceipts_confirmed]
    constructor
    · rintro ⟨fact, member, confirmed, rfl⟩
      obtain ⟨row, present, read⟩ := Fallible.exists_item facts member
      exact ⟨row, present, transactionFact_confirmed read confirmed, (transactionFact_slot read).1.symm⟩
    · rintro ⟨row, present, success, rfl⟩
      obtain ⟨fact, member, read⟩ := Fallible.exists_result facts present
      obtain ⟨notReverted, absentIff⟩ := transactionFact_succeeded success read
      have notAbsent : fact.state ≠ .absent := fun absent => safe row present success (absentIff.mp absent)
      obtain ⟨notAmbiguous, notPending⟩ := settled fact member
      refine ⟨fact, member, ?_, (transactionFact_slot read).1⟩
      cases state : fact.state <;> simp_all
  · rcases classifyRecovery_unsettled confirmedSteps settled with manual | waits
    · exact Or.inl manual
    · exact Or.inr (Or.inl waits)

/-- A reconciliation that returns respects every successful receipt exactly when its failed reads
misread none of them. -/
theorem reconcile_respects_receipts {recoveryJobById : JobId → Option Address} {reconcile : Bool}
    {transactions : List RecoveryTxFact} {rewritten : Journal} (known : recoveryJobById jobId = some owner)
    (returned : reconcileRecoveryTransactions keccak256 rpc recoveryJobById journal jobId reconcile =
      .ok (transactions, rewritten)) :
    (RowsRespected keccak256 rpc journal owner jobId transactions rewritten ∧
        DispositionRespected keccak256 rpc journal owner jobId transactions) ↔
      ∀ row ∈ jobTransactions journal jobId, succeeded keccak256 rpc owner row = true →
        ¬ Misread keccak256 rpc journal owner row := by
  simp only [reconcileRecoveryTransactions, known] at returned
  split at returned
  · cases returned
  · rename_i collected read
    cases returned
    have facts := Fallible.collect_ok read
    constructor
    · rintro ⟨respected, _⟩ row present success misread
      obtain ⟨fact, member, read⟩ := Fallible.exists_result facts present
      have absent := (transactionFact_succeeded success read).2.mpr misread
      exact ((respected row present success).1 fact member (transactionFact_slot read)).1 absent
    · intro safe
      refine ⟨fun row present success => ?_, dispositionRespected_of_safe facts safe⟩
      have verdict : ∀ fact ∈ transactions, SameSlot fact row → fact.state ≠ .absent ∧ fact.state ≠ .reverted := by
        intro fact member slot
        obtain ⟨notReverted, absentIff⟩ := transactionFact_succeeded success (fact_of_slot facts present member slot)
        exact ⟨fun absent => safe row present success (absentIff.mp absent), notReverted⟩
      obtain ⟨rowIn, rowJob⟩ := mem_jobTransactions.mp present
      have before : ∀ row', journal.get? row.key = some row' → row'.state = .failed → row' = row := by
        intro row' read _
        rw [Table.get?_of_mem rowIn] at read
        exact (Option.some.inj read).symm
      refine ⟨verdict, ?_⟩
      cases reconcile with
      | false => exact before
      | true => exact reconcileFacts_keep rowJob verdict before

theorem reconcileFacts_confirm {facts : List RecoveryTxFact} {key : SlotKey} {holds : Prop}
    (mined : ∀ fact ∈ facts, fact.state = .confirmed → slotKey jobId fact.stepIndex fact.txIndex = key → holds)
    (before : ∀ row, journal.get? key = some row → row.state = .confirmed → holds) :
    ∀ row, (facts.foldl (reconcileFact jobId) journal).get? key = some row → row.state = .confirmed → holds := by
  induction facts generalizing journal with
  | nil => exact before
  | cons fact rest ih =>
    obtain ⟨own, later⟩ := List.forall_mem_cons.mp mined
    refine ih later fun row read confirmed => ?_
    by_cases slot : slotKey jobId fact.stepIndex fact.txIndex = key
    · unfold reconcileFact at read
      split at read
      · exact own ‹_› slot
      all_goals first | exact before row read confirmed | rw [← slot, reconcileJobTransaction_get?] at read
      all_goals
        obtain ⟨_, _, rfl⟩ := Option.map_eq_some_iff.mp read
        cases confirmed
    · refine before row (.trans ?_ read) confirmed
      unfold reconcileFact
      split <;> first | rfl | exact (reconcileJobTransaction_frame (Ne.symm slot)).symm

/-- Whatever reads fail: what a reconciliation calls confirmed, or leaves confirmed anew, has succeeded on chain. -/
theorem reconcile_confirms_mined {recoveryJobById : JobId → Option Address} {reconcile : Bool} :
    match reconcileRecoveryTransactions keccak256 rpc recoveryJobById journal jobId reconcile with
    | .error _ => True
    | .ok (transactions, rewritten) => ∃ owner, recoveryJobById jobId = some owner ∧
      (∀ fact ∈ transactions, fact.state = .confirmed →
        ∃ row ∈ jobTransactions journal jobId, SameSlot fact row ∧ succeeded keccak256 rpc owner row = true) ∧
      ∀ key row, rewritten.get? key = some row → row.state = .confirmed →
        ∃ old ∈ journal.rows, old.key = key ∧ (old.state = .confirmed ∨ succeeded keccak256 rpc owner old = true) := by
  unfold reconcileRecoveryTransactions
  cases recoveryJobById jobId with
  | none => trivial
  | some owner =>
    dsimp only
    cases read : Fallible.collect (transactionFact keccak256 rpc journal owner) (jobTransactions journal jobId) with
    | error _ => trivial
    | ok transactions =>
      have mined : ∀ fact ∈ transactions, fact.state = .confirmed →
          ∃ row ∈ jobTransactions journal jobId, SameSlot fact row ∧ succeeded keccak256 rpc owner row = true := by
        intro fact member confirmed
        obtain ⟨row, found, read⟩ := Fallible.exists_item (Fallible.collect_ok read) member
        exact ⟨row, found, transactionFact_slot read, transactionFact_confirmed read confirmed⟩
      refine ⟨owner, rfl, mined, fun key => ?_⟩
      cases reconcile with
      | false => exact fun row found confirmed => ⟨row, Table.get?_mem found, Table.get?_key found, .inl confirmed⟩
      | true =>
        refine reconcileFacts_confirm (fun fact member confirmed slot => ?_) fun row found confirmed =>
          ⟨row, Table.get?_mem found, Table.get?_key found, .inl confirmed⟩
        obtain ⟨old, found, same, success⟩ := mined fact member confirmed
        obtain ⟨inside, own⟩ := mem_jobTransactions.mp found
        exact ⟨old, inside, by rw [← slot, JobTransaction.key, own, same.1, same.2], .inr success⟩

end

def sentMint : JobTransaction where
  jobId := 1
  stepIndex := 8
  txIndex := 0
  state := .sent
  nonce := some 5
  txHash := some 7
  txTo := 3
  calldataHash := 9
  blockNumber := none
  gasUsed := none
  errorCode := none

def mintedRpc (fails : RpcRead → Bool) : Rpc where
  receipts hash := if hash = 7 then
      some { transactionHash := 7, status := .success, blockNumber := 20, gasUsed := 0, effectiveGasPrice := 0, logs := [] }
    else none
  transactions hash := if hash = 7 then some { sender := 2, target := some 3, input := [], nonce := 5, value := 0 } else none
  latestCount _ := 6
  pendingCount _ := 6
  fails := fails

def mintJournal : Journal :=
  Journal.empty.put sentMint (by decide)

theorem reconcile_respects_receipts_sound_reads :
    ∃ transactions rewritten,
      reconcileRecoveryTransactions (fun _ => 9) (mintedRpc fun _ => false) (fun _ => some 2) mintJournal 1 true =
          .ok (transactions, rewritten) ∧
        ((RowsRespected (fun _ => 9) (mintedRpc fun _ => false) mintJournal 2 1 transactions rewritten ∧
            DispositionRespected (fun _ => 9) (mintedRpc fun _ => false) mintJournal 2 1 transactions) ↔
          ∀ row ∈ jobTransactions mintJournal 1, succeeded (fun _ => 9) (mintedRpc fun _ => false) 2 row = true →
            ¬ Misread (fun _ => 9) (mintedRpc fun _ => false) mintJournal 2 row) :=
  ⟨_, _, rfl, @reconcile_respects_receipts (fun _ => 9) (mintedRpc fun _ => false) mintJournal 2 1 (fun _ => some 2) true
    _ _ rfl rfl⟩

/-- The receipt read and the recheck of the mint time out: the minted position is restarted. -/
theorem reconcile_restarts_minted_job :
    let rpc := mintedRpc fun
      | .receipt _ | .recheck _ => true
      | _ => false
    succeeded (fun _ => 9) rpc 2 sentMint = true ∧
      ∃ transactions rewritten,
        reconcileRecoveryTransactions (fun _ => 9) rpc (fun _ => some 2) mintJournal 1 true = .ok (transactions, rewritten) ∧
          (rewritten.get? sentMint.key).map JobTransaction.state = some .failed ∧
          classifyRecovery transactions [] = .restartSafe ∧
          ¬ RowsRespected (fun _ => 9) rpc mintJournal 2 1 transactions rewritten ∧
          ¬ DispositionRespected (fun _ => 9) rpc mintJournal 2 1 transactions := by
  refine ⟨by decide, _, _, rfl, by decide, by decide, fun respected => ?_, fun respected => ?_⟩
  · exact absurd rfl (((respected sentMint (by decide) (by decide)).1 (factOf sentMint .absent none) (by decide)
      ⟨rfl, rfl⟩).1)
  · exact absurd (respected []) (by decide)

end LpTerminal.Recovery
