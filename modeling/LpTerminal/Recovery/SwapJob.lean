import LpTerminal.Executor.Capital
import LpTerminal.Executor.FeeTax
import LpTerminal.Executor.Receipts
import LpTerminal.Lib.Durable
import LpTerminal.Store.Journal

/-!
What a job keeps of its swaps, and the operations recovery runs on it: the journal, the swap plan by
slot, the audits of the live run, and the wallet as the chain moves it.
-/

namespace LpTerminal.SwapJob

open Capital Durable FeeTax Rebalance Receipts Store

/-- A job of one strategy; `rewardQuote` is the staking reward it settled in the quote token. -/
structure Job where
  id : JobId
  owner : Address
  pair : Pair
  handling : FeeHandling
  maxSlippageBps : Nat
  rewardQuote : ℤ

/-- A planned or sent swap; `purpose` is a strategy swap where an old record leaves it out. -/
structure SwapPlanRecord where
  txIndex : Nat
  purpose : SwapPurpose
  tokenIn : Address
  tokenOut : Address
  amountIn : ℤ
  quotedOut : ℤ
  minOut : Option ℤ
  principalIn : ℤ
  feeIn : ℤ

def planRecord (txIndex : Nat) (intent : SwapIntent) : SwapPlanRecord where
  txIndex := txIndex
  purpose := intent.purpose
  tokenIn := intent.tokenIn
  tokenOut := intent.tokenOut
  amountIn := intent.amountIn
  quotedOut := intent.quotedOut
  minOut := none
  principalIn := intent.principalIn
  feeIn := intent.feeIn

def plannedIntent (record : SwapPlanRecord) : SwapIntent where
  purpose := record.purpose
  tokenIn := record.tokenIn
  tokenOut := record.tokenOut
  amountIn := record.amountIn
  quotedOut := record.quotedOut
  principalIn := record.principalIn
  feeIn := record.feeIn

/-- An execution the live run wrote down, with the quote and the minimum of its route. -/
structure ExecutedSwapAudit where
  txHash : Hash
  intent : SwapIntent
  spent : ℤ
  gained : ℤ
  routeAmountOut : ℤ
  routeMinOut : ℤ

def applySlippage (amount : ℤ) (bps : Nat) : ℤ :=
  (amount * (10000 - bps : ℤ)).tdiv 10000

/-- A swap transaction that passed `assertFinalSwapBounds`. -/
structure PreparedSwap where
  amountOut : ℤ
  minOut : ℤ
  positive : 0 < minOut
  bounded : minOut ≤ amountOut

/-- How a tracked send ends: before its first mark, marked as sending, marked as sent, or mined, after which only the
gas valuation can still throw. -/
inductive SendOutcome
  | refused (error : ErrorCode)
  | unsent (hash : Option Hash) (error : ErrorCode)
  | unseen (hash : Hash) (error : ErrorCode)
  | mined (hash : Hash) (valuation : Except ErrorCode Unit)

/-- One call of `sendTracked`: what its marks record, and how it ends. -/
structure Send where
  txTo : Address
  calldataHash : Hash
  nonce : Nat
  outcome : SendOutcome

/-- A swap as the journal and the plan held it when it was confirmed. -/
structure SettledSwap where
  row : JobTransaction
  record : SwapPlanRecord

/-- The durable state of a job, with the wallet and every transaction of the job that was mined, by its step. What was
settled is kept for the proofs only: no program reads it. -/
structure JobState where
  journal : Journal
  swapPlan : Table SwapPlanRecord.txIndex
  executedSwaps : List ExecutedSwapAudit
  feeTax : Option FeeTaxContext
  capital : Option CapitalHarvestPlan
  wallet : Address → ℤ
  mined : List (Nat × Hash)
  settled : List SettledSwap

section
variable (job : Job) (chain : ChainFacts job.owner)

def swapStep : Nat := 5

def swapSlot (txIndex : Nat) : SlotKey :=
  slotKey job.id swapStep txIndex

def sendMark (stepIndex txIndex : Nat) (send : Send) (state : TransactionState) (hash : Option Hash)
    (errorCode : Option ErrorCode) : TransactionMark where
  jobId := job.id
  stepIndex := stepIndex
  txIndex := txIndex
  state := state
  nonce := some send.nonce
  txHash := hash
  txTo := send.txTo
  calldataHash := send.calldataHash
  errorCode := errorCode

def note (mark : TransactionMark) : Durable ErrorCode JobState Unit :=
  tryWrite fun state => (markTransaction state.journal mark).map fun journal => { state with journal }

def land (stepIndex : Nat) (hash : Hash) (state : JobState) : JobState :=
  if hash ∈ state.mined.map Prod.snd then state
  else
    { state with
      wallet := fun token => state.wallet token + chain.felt hash token
      mined := (stepIndex, hash) :: state.mined }

def settle (stepIndex txIndex : Nat) (state : JobState) : JobState :=
  match state.journal.get? (slotKey job.id stepIndex txIndex), state.swapPlan.get? txIndex with
  | some row, some record => if stepIndex = swapStep then { state with settled := ⟨row, record⟩ :: state.settled } else state
  | _, _ => state

/-- `sendTracked`, by its outcome. -/
def trackedSend (stepIndex txIndex : Nat) (send : Send) : Durable ErrorCode JobState Receipt :=
  match send.outcome with
  | .refused error => fail error
  | .unsent hash error => do
    note (sendMark job stepIndex txIndex send .sending hash none)
    fail error
  | .unseen hash error => do
    note (sendMark job stepIndex txIndex send .sent (some hash) none)
    fail error
  | .mined hash valuation => do
    note (sendMark job stepIndex txIndex send .sent (some hash) none)
    write (land job chain stepIndex hash)
    if (chain.receiptOf hash).status = .success then do
      note (sendMark job stepIndex txIndex send .confirmed (some hash) none)
      write (settle job stepIndex txIndex)
      reply valuation
      return chain.receiptOf hash
    else do
      note (sendMark job stepIndex txIndex send .failed (some hash) (some .txReverted))
      fail .txReverted

def sendAllowances (stepIndex : Nat) (txIndex : Nat) : List Send → Durable ErrorCode JobState Unit
  | [] => return ()
  | send :: rest => do
    let _ ← trackedSend job chain stepIndex txIndex send
    sendAllowances stepIndex (txIndex + 1) rest

def allowancesAt (stepIndex : Nat) (sends : Except ErrorCode (List Send)) : Durable ErrorCode JobState Unit := do
  let sends ← reply sends
  let state ← read
  sendAllowances job chain stepIndex (nextTransactionIndex state.journal job.id stepIndex) sends

def allowances (sends : Except ErrorCode (List Send)) : Durable ErrorCode JobState Unit := allowancesAt job chain 4 sends

def recordSwap (record : SwapPlanRecord) : Durable ErrorCode JobState Unit :=
  write fun state => { state with swapPlan := state.swapPlan.put record }

def driftWallet (drift : Address → ℤ) : Durable ErrorCode JobState Unit :=
  write fun state => { state with wallet := fun token => state.wallet token + drift token }

def sendRecoverySwap (txIndex : Nat) (intent : SwapIntent) (prepared : PreparedSwap) (send : Send) :
    Durable ErrorCode JobState Receipt := do
  let state ← read
  match state.swapPlan.get? txIndex with
  | none => fail .recoveryContext
  | some record =>
    if record.tokenIn ≠ intent.tokenIn ∨ record.tokenOut ≠ intent.tokenOut ∨ record.amountIn ≠ intent.amountIn then
      fail .recoveryContext
    else do
      recordSwap { record with quotedOut := prepared.amountOut, minOut := some prepared.minOut }
      trackedSend job chain swapStep txIndex send

def confirmedSwaps (state : JobState) : List JobTransaction :=
  (stepTransactions state.journal job.id swapStep).filter fun row => row.state = .confirmed && row.txHash.isSome

def confirmedAt (state : JobState) (stepIndex : Nat) : Option Receipt :=
  ((stepTransactions state.journal job.id stepIndex).find? fun row => row.state = .confirmed && row.txHash.isSome).bind
    fun row => row.txHash.map chain.receiptOf

def confirmedSwap? (state : JobState) (txIndex : Nat) : Option Receipt :=
  match state.journal.get? (swapSlot job txIndex) with
  | none => none
  | some row => if row.state = .confirmed then row.txHash.map chain.receiptOf else none

def confirmedSwapExists (state : JobState) : Bool :=
  (stepTransactions state.journal job.id swapStep).any fun row => row.state = .confirmed

def storedMinOut (record : SwapPlanRecord) : ℤ :=
  record.minOut.getD (applySlippage record.quotedOut job.maxSlippageBps)

def afterRecords (state : JobState) : Nat :=
  (state.swapPlan.rows.map fun record => record.txIndex + 1).foldl max 0

def ensureTax (market : Market) (quote : QuoteFn) (fee0 fee1 : ℤ) : Durable ErrorCode JobState FeeTaxPlan := do
  let state ← read
  let (plan, context) ← reply
    (ensureFeeTaxPlan market quote state.feeTax (confirmedSwapExists job state) job.pair fee0 fee1 job.rewardQuote)
  write fun state => { state with feeTax := some context }
  return plan

def minedHash (landed : Hash → Bool) (state : JobState) (row : JobTransaction) : Option Hash :=
  row.txHash.filter fun hash => landed hash || state.mined.any fun entry => entry.2 = hash

def resolveRow (landed : Hash → Bool) (state : JobState) (row : JobTransaction) : JobState :=
  if row.state = .sending ∨ row.state = .sent then
    match minedHash landed state row with
    | none =>
      { state with
        journal := reconcileJobTransaction state.journal row.jobId row.stepIndex row.txIndex .failed none (some .txAbsent) }
    | some hash =>
      let state := land job chain row.stepIndex hash state
      let receipt := chain.receiptOf hash
      if receipt.status = .success then
        settle job row.stepIndex row.txIndex
          { state with
            journal := reconcileJobTransaction state.journal row.jobId row.stepIndex row.txIndex .confirmed
              (some receipt.blockNumber) none }
      else
        { state with
          journal := reconcileJobTransaction state.journal row.jobId row.stepIndex row.txIndex .failed
            (some receipt.blockNumber) (some .txReverted) }
  else state

def resolveSlots (landed : Hash → Bool) (state : JobState) : JobState :=
  (jobTransactions state.journal job.id).foldl (resolveRow job chain landed) state

end

section
variable {job : Job} {chain : ChainFacts job.owner} {I : JobState → Prop}

@[simp] theorem land_journal (stepIndex : Nat) (hash : Hash) (state : JobState) :
    (land job chain stepIndex hash state).journal = state.journal := by
  unfold land
  split <;> rfl

@[simp] theorem land_swapPlan (stepIndex : Nat) (hash : Hash) (state : JobState) :
    (land job chain stepIndex hash state).swapPlan = state.swapPlan := by
  unfold land
  split <;> rfl

@[simp] theorem settle_journal (stepIndex txIndex : Nat) (state : JobState) :
    (settle job stepIndex txIndex state).journal = state.journal := by
  unfold settle
  split
  · split <;> rfl
  · rfl

theorem settle_eq (stepIndex txIndex : Nat) (state : JobState) :
    settle job stepIndex txIndex state = { state with settled := (settle job stepIndex txIndex state).settled } := by
  unfold settle
  split
  · split <;> rfl
  · rfl

@[simp] theorem land_feeTax (stepIndex : Nat) (hash : Hash) (state : JobState) :
    (land job chain stepIndex hash state).feeTax = state.feeTax := by
  unfold land
  split <;> rfl

variable {stepIndex : Nat}

theorem mem_land {hash : Hash} {state : JobState} {entry : Nat × Hash} (member : entry ∈ state.mined) :
    entry ∈ (land job chain stepIndex hash state).mined := by
  unfold land
  split
  · exact member
  · exact List.mem_cons_of_mem _ member

theorem note_keeps {mark : TransactionMark}
    (kept : ∀ state journal, I state → markTransaction state.journal mark = .ok journal → I { state with journal }) :
    Keeps I (note mark) := by
  refine keeps_tryWrite fun state state' before wrote => ?_
  cases marked : markTransaction state.journal mark with
  | error e => rw [marked] at wrote; cases wrote
  | ok journal =>
    rw [marked] at wrote
    cases wrote
    exact kept state journal before marked

theorem trackedSend_keeps {stepIndex txIndex : Nat} {send : Send}
    (noted : ∀ state hash error, Keeps I (note (sendMark job stepIndex txIndex send state hash error)))
    (landed : ∀ hash state, I state → I (land job chain stepIndex hash state))
    (settled : ∀ state, I state → I (settle job stepIndex txIndex state)) :
    Keeps I (trackedSend job chain stepIndex txIndex send) := by
  unfold trackedSend
  cases send.outcome with
  | refused error => exact keeps_fail error
  | unsent hash error => exact keeps_bind (noted _ _ _) fun _ => keeps_fail error
  | unseen hash error => exact keeps_bind (noted _ _ _) fun _ => keeps_fail error
  | mined hash valuation =>
    refine keeps_bind (noted _ _ _) fun _ => keeps_bind (keeps_write (landed hash)) fun _ => ?_
    split
    · refine keeps_bind (noted _ _ _) fun _ => keeps_bind (keeps_write settled) fun _ => ?_
      exact keeps_bind (keeps_reply _) fun _ => keeps_pure _
    · exact keeps_bind (noted _ _ _) fun _ => keeps_fail _

theorem sendAllowances_keeps
    (noted : ∀ txIndex send state hash error, Keeps I (note (sendMark job stepIndex txIndex send state hash error)))
    (landed : ∀ hash state, I state → I (land job chain stepIndex hash state))
    (settled : ∀ txIndex state, I state → I (settle job stepIndex txIndex state)) (txIndex : Nat) (sends : List Send) :
    Keeps I (sendAllowances job chain stepIndex txIndex sends) := by
  induction sends generalizing txIndex with
  | nil => exact keeps_pure ()
  | cons send rest ih =>
    exact keeps_bind (trackedSend_keeps (noted txIndex send) landed (settled txIndex)) fun _ => ih (txIndex + 1)

theorem allowances_keeps
    (noted : ∀ txIndex send state hash error, Keeps I (note (sendMark job 4 txIndex send state hash error)))
    (landed : ∀ hash state, I state → I (land job chain 4 hash state))
    (settled : ∀ txIndex state, I state → I (settle job 4 txIndex state)) (sends : Except ErrorCode (List Send)) :
    Keeps I (allowances job chain sends) :=
  keeps_bind (keeps_reply sends) fun _ => keeps_bind keeps_read fun _ => sendAllowances_keeps noted landed settled _ _

@[simp] theorem settle_off (off : stepIndex ≠ swapStep) (txIndex : Nat) (state : JobState) :
    settle job stepIndex txIndex state = state := by
  unfold settle
  split
  · rw [if_neg off]
  · rfl

theorem resolveRow_frame {landed : Hash → Bool} {state : JobState} {row : JobTransaction} {key : SlotKey}
    (other : key ≠ row.key) : (resolveRow job chain landed state row).journal.get? key = state.journal.get? key := by
  unfold resolveRow
  split
  · split
    · exact reconcileJobTransaction_frame other
    · dsimp only
      split
      · rw [settle_journal]
        exact (reconcileJobTransaction_frame other).trans (by rw [land_journal])
      · exact (reconcileJobTransaction_frame other).trans (by rw [land_journal])
  · rfl

theorem resolveSlots_keeps {landed : Hash → Bool} {state : JobState} (before : I state)
    (each : ∀ middle, ∀ row ∈ jobTransactions state.journal job.id, middle.journal.get? row.key = some row → I middle →
      I (resolveRow job chain landed middle row)) :
    I (resolveSlots job chain landed state) := by
  have rowsOf : ∀ rows : List JobTransaction, (∀ row ∈ rows, row ∈ jobTransactions state.journal job.id) →
      rows.Pairwise (fun first second => first.key < second.key) → ∀ middle,
      (∀ row ∈ rows, middle.journal.get? row.key = some row) → I middle → I (rows.foldl (resolveRow job chain landed) middle) := by
    intro rows
    induction rows with
    | nil => exact fun _ _ _ _ kept => kept
    | cons row rest ih =>
      intro among sorted middle present kept
      obtain ⟨ahead, sorted⟩ := List.pairwise_cons.mp sorted
      refine ih (fun other member => among other (List.mem_cons_of_mem _ member)) sorted _ (fun other member => ?_)
        (each middle row (among row List.mem_cons_self) (present row List.mem_cons_self) kept)
      rw [resolveRow_frame (ahead other member).ne']
      exact present other (List.mem_cons_of_mem _ member)
  refine rowsOf _ (fun _ member => member) (state.journal.sorted.sublist List.filter_sublist) state (fun row member => ?_) before
  exact Table.get?_of_mem (List.mem_filter.mp member).1

/-- Every slot of these steps confirmed in `start` still holds its row. -/
def ConfirmedKept (job : Job) (steps : Nat → Prop) (start state : JobState) : Prop :=
  ∀ stepIndex txIndex row, steps stepIndex → start.journal.get? (slotKey job.id stepIndex txIndex) = some row →
    row.state = .confirmed → state.journal.get? (slotKey job.id stepIndex txIndex) = some row

def Unconfirmed (state : JobState) (key : SlotKey) : Prop :=
  ∀ row, state.journal.get? key = some row → row.state ≠ .confirmed

variable {steps : Nat → Prop}

theorem ConfirmedKept.refl (state : JobState) : ConfirmedKept job steps state state := fun _ _ _ _ read _ => read

theorem ConfirmedKept.trans {start middle state : JobState} (first : ConfirmedKept job steps start middle)
    (second : ConfirmedKept job steps middle state) : ConfirmedKept job steps start state :=
  fun stepIndex txIndex row own read confirmed =>
    second stepIndex txIndex row own (first stepIndex txIndex row own read confirmed) confirmed

variable {start state : JobState}

theorem mark_confirmedKept {mark : TransactionMark} {journal : Journal}
    (free : steps mark.stepIndex → Unconfirmed start mark.key) (kept : ConfirmedKept job steps start state)
    (marked : markTransaction state.journal mark = .ok journal) : ConfirmedKept job steps start { state with journal } := by
  intro stepIndex txIndex row own read confirmed
  by_cases same : slotKey job.id stepIndex txIndex = mark.key
  · have step : stepIndex = mark.stepIndex := (slotKey_inj.mp same).2.1
    exact absurd confirmed (free (step ▸ own) row (same ▸ read))
  · exact (markTransaction_frame marked same).trans (kept stepIndex txIndex row own read confirmed)

theorem land_confirmedKept (stepIndex : Nat) (hash : Hash)
    (kept : ConfirmedKept job steps start state) : ConfirmedKept job steps start (land job chain stepIndex hash state) := by
  intro step txIndex row own read confirmed
  rw [land_journal]
  exact kept step txIndex row own read confirmed

theorem resolveSlots_confirmedKept (landed : Hash → Bool) (state : JobState) :
    ConfirmedKept job steps state (resolveSlots job chain landed state) := by
  refine resolveSlots_keeps (ConfirmedKept.refl state) fun middle row member _ kept stepIndex txIndex other own read confirmed => ?_
  have inJournal : row ∈ state.journal.rows := (List.mem_filter.mp member).1
  by_cases same : slotKey job.id stepIndex txIndex = row.key
  · -- the row of a confirmed slot is not open
    rw [same, Table.get?_of_mem inJournal] at read
    cases read
    have closed : ¬ (row.state = .sending ∨ row.state = .sent) := by simp [confirmed]
    have before := kept stepIndex txIndex row own (same ▸ Table.get?_of_mem inJournal) confirmed
    unfold resolveRow
    rwa [if_neg closed]
  · exact (resolveRow_frame same).trans (kept stepIndex txIndex other own read confirmed)

theorem confirmedSwap?_kept (kept : ConfirmedKept job steps start state) (swaps : steps swapStep)
    {txIndex : Nat} {receipt : Receipt} (confirmed : confirmedSwap? job chain start txIndex = some receipt) :
    confirmedSwap? job chain state txIndex = some receipt := by
  unfold confirmedSwap? at confirmed ⊢
  cases read : start.journal.get? (swapSlot job txIndex) with
  | none => rw [read] at confirmed; cases confirmed
  | some row =>
    rw [read] at confirmed
    dsimp only at confirmed
    split at confirmed
    · rename_i isConfirmed
      have later : state.journal.get? (swapSlot job txIndex) = some row := kept swapStep txIndex row swaps read isConfirmed
      rw [later]
      dsimp only
      rw [if_pos isConfirmed, confirmed]
    · cases confirmed

theorem confirmedAt_kept (kept : ConfirmedKept job steps start state)
    (own : steps stepIndex) (confirmed : (confirmedAt job chain start stepIndex).isSome = true) :
    (confirmedAt job chain state stepIndex).isSome = true := by
  unfold confirmedAt at confirmed ⊢
  obtain ⟨receipt, found⟩ := Option.isSome_iff_exists.mp confirmed
  obtain ⟨row, first, _⟩ := Option.bind_eq_some_iff.mp found
  have matching := List.find?_some first
  have listed := List.mem_of_find?_eq_some first
  unfold stepTransactions jobTransactions at listed
  simp only [List.mem_filter, decide_eq_true_eq] at listed
  obtain ⟨⟨member, sameJob⟩, sameStep⟩ := listed
  have key : row.key = slotKey job.id stepIndex row.txIndex := by
    unfold JobTransaction.key
    rw [sameJob, sameStep]
  have isConfirmed : row.state = .confirmed := by simpa using (Bool.and_eq_true_iff.mp matching).1
  have later := kept stepIndex row.txIndex row own (key ▸ Table.get?_of_mem member) isConfirmed
  have still : row ∈ stepTransactions state.journal job.id stepIndex := by
    unfold stepTransactions jobTransactions
    simp only [List.mem_filter, decide_eq_true_eq]
    exact ⟨⟨Table.get?_mem later, sameJob⟩, sameStep⟩
  cases again : (stepTransactions state.journal job.id stepIndex).find? fun row => row.state = .confirmed && row.txHash.isSome with
  | none => exact absurd matching (List.find?_eq_none.mp again row still)
  | some other =>
    have found := List.find?_some again
    obtain ⟨hash, hashed⟩ := Option.isSome_iff_exists.mp (Bool.and_eq_true_iff.mp found).2
    rw [Option.bind_some, hashed]
    rfl

theorem confirmedSwapExists_of {state : JobState} {txIndex : Nat} {receipt : Receipt}
    (confirmed : confirmedSwap? job chain state txIndex = some receipt) : confirmedSwapExists job state = true := by
  unfold confirmedSwap? at confirmed
  cases read : state.journal.get? (swapSlot job txIndex) with
  | none => rw [read] at confirmed; cases confirmed
  | some row =>
    rw [read] at confirmed
    dsimp only at confirmed
    split at confirmed
    · rename_i isConfirmed
      have key : row.key = swapSlot job txIndex := Table.get?_key read
      obtain ⟨sameJob, sameStep, _⟩ := slotKey_inj.mp key
      refine List.any_eq_true.mpr ⟨row, ?_, by simpa using isConfirmed⟩
      unfold stepTransactions jobTransactions
      simp only [List.mem_filter, decide_eq_true_eq]
      exact ⟨⟨Table.get?_mem read, sameJob⟩, sameStep⟩
    · cases confirmed

end

end LpTerminal.SwapJob
