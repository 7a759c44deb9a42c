import LpTerminal.Executor.Signer
import LpTerminal.Lib.Trace
import LpTerminal.Recovery.FailedReads

/-!
A journal row that carries a hash carries the facts of the transaction of that hash, as long as no
reused slot is left between its two marks.
-/

namespace LpTerminal.SlotReuse

open Durable Signer Store Trace

variable (network : Network) (keccak256 : Calldata → Hash) (transactionHash : SignedTransaction → Hash)
variable (limits : JobId → ExecutionLimits)

def Carries (tx : SignedTransaction) (row : JobTransaction) : Prop :=
  row.txTo = tx.target ∧ row.calldataHash = keccak256 tx.data ∧ row.nonce = some tx.nonce ∧
    tx.signer = (limits row.jobId).owner

def RowSigned (signed : List SignedTransaction) (row : JobTransaction) : Prop :=
  ∀ hash, row.txHash = some hash → ∃ tx ∈ signed, transactionHash tx = hash ∧ Carries keccak256 limits tx row

def HashesCarried (state : State) : Prop :=
  ∀ row ∈ state.journal.rows, RowSigned keccak256 transactionHash limits state.signed row

def OthersCarried (slot : SlotKey) (state : State) : Prop :=
  ∀ row ∈ state.journal.rows, row.key ≠ slot → RowSigned keccak256 transactionHash limits state.signed row

def Records (args : SendArgs) (nonce : Nat) (row : JobTransaction) : Prop :=
  row.jobId = args.jobId ∧ row.txTo = args.tx.target ∧ row.calldataHash = keccak256 args.tx.data ∧ row.nonce = some nonce

def SlotSent (args : SendArgs) (nonce : Nat) (hash : Hash) (state : State) : Prop :=
  ∃ row, state.journal.get? args.slot = some row ∧ Records keccak256 args nonce row ∧ row.txHash = some hash

def SignsNext (args : SendArgs) (replies : SendReplies) (nonce gas round : Nat) (previous : Option Nat)
    (journal : Journal) : Prop :=
  ∃ gasPrice, gasPriceFor network limits args replies gas round previous = .ok gasPrice ∧
    ∀ other ∈ journal.rows, other.key ≠ args.slot →
      other.txHash ≠ some (transactionHash (signTransaction network args replies nonce gas gasPrice))

/-- The slot of a call that gets through its preflight is empty, carries no hash, carries this very intent, or
gets its new hash before anything can stop the call. -/
def SlotReady (state : State) (args : SendArgs) (replies : SendReplies) : Prop :=
  ∀ nonce gas, preflight network limits args replies = .ok (nonce, gas) →
    ∀ row, state.journal.get? args.slot = some row →
      row.txHash = none ∨ Records keccak256 args nonce row ∨
        SignsNext network transactionHash limits args replies nonce gas 0 none state.journal

variable {network keccak256 transactionHash limits}

theorem RowSigned.mono {signed : List SignedTransaction} {tx : SignedTransaction} {row : JobTransaction}
    (carried : RowSigned keccak256 transactionHash limits signed row) :
    RowSigned keccak256 transactionHash limits (tx :: signed) row := by
  intro hash recorded
  obtain ⟨source, member, same, carries⟩ := carried hash recorded
  exact ⟨source, List.mem_cons_of_mem _ member, same, carries⟩

theorem RowSigned.congr {signed : List SignedTransaction} {row row' : JobTransaction}
    (carried : RowSigned keccak256 transactionHash limits signed row) (job : row'.jobId = row.jobId)
    (target : row'.txTo = row.txTo) (calldata : row'.calldataHash = row.calldataHash) (nonce : row'.nonce = row.nonce)
    (hash : row'.txHash = row.txHash) : RowSigned keccak256 transactionHash limits signed row' := by
  unfold RowSigned Carries
  rw [hash, target, calldata, nonce, job]
  exact carried

variable {state : State}

theorem HashesCarried.others {slot : SlotKey}
    (carried : HashesCarried keccak256 transactionHash limits state) :
    OthersCarried keccak256 transactionHash limits slot state :=
  fun row member _ => carried row member

variable {mark : TransactionMark}

theorem noteTransaction_triple {P : State → Prop} {Q : Unit → State → Prop} {E : State → Prop}
    (holds : ∀ state journal, P state → markTransaction state.journal mark = .ok journal → Q () { state with journal })
    (refused : ∀ state, P state → (∀ journal, markTransaction state.journal mark ≠ .ok journal) → E state) :
    Triple P (noteTransaction mark) Q E := by
  refine triple_tryWrite (fun state state' before wrote => ?_) (fun state error before wrote => ?_)
  · cases marked : markTransaction state.journal mark with
    | error e => rw [marked] at wrote; cases wrote
    | ok journal =>
      rw [marked] at wrote
      cases wrote
      exact holds state journal before marked
  · refine refused state before fun journal marked => ?_
    rw [marked] at wrote
    cases wrote

variable {journal : Journal}

theorem mark_carried {slot : SlotKey}
    (key : mark.key = slot) (marked : markTransaction state.journal mark = .ok journal)
    (others : OthersCarried keccak256 transactionHash limits slot state)
    (own : RowSigned keccak256 transactionHash limits state.signed (mark.merge (state.journal.get? slot))) :
    HashesCarried keccak256 transactionHash limits { state with journal } := by
  intro row member
  subst key
  rcases (mem_markTransaction marked).mp member with rfl | ⟨old, apart⟩
  · exact own
  · exact others row old apart

theorem mark_others {slot : SlotKey}
    (key : mark.key = slot) (marked : markTransaction state.journal mark = .ok journal)
    (others : OthersCarried keccak256 transactionHash limits slot state) :
    OthersCarried keccak256 transactionHash limits slot { state with journal } := by
  intro row member apart
  subst key
  rcases (mem_markTransaction marked).mp member with rfl | ⟨old, _⟩
  · exact absurd merge_key apart
  · exact others row old apart

variable {args : SendArgs}

theorem slotMark_records {mark : TransactionState} {nonce : Nat} {hash : Option Hash}
    {row : Option JobTransaction} :
    Records keccak256 args nonce ((slotMark keccak256 args mark (some nonce) hash).merge row) := by
  cases row <;> exact ⟨rfl, rfl, rfl, rfl⟩

variable {replies : SendReplies}

theorem signTransaction_carries {nonce gas gasPrice : Nat}
    {row : JobTransaction} (owned : replies.account = (limits args.jobId).owner) (records : Records keccak256 args nonce row) :
    Carries keccak256 limits (signTransaction network args replies nonce gas gasPrice) row := by
  obtain ⟨job, target, calldata, known⟩ := records
  exact ⟨target, calldata, known, by rw [job]; exact owned⟩

theorem broadcastExact_ok {round attempt left : Nat} {localHash hash : Hash}
    (sent : broadcastExact replies round localHash attempt left = .ok hash) : hash = localHash := by
  have once : ∀ attempt, attemptBroadcast replies round localHash attempt = .ok hash → hash = localHash := by
    intro attempt sent
    unfold attemptBroadcast at sent
    dsimp only at sent
    repeat' split at sent
    all_goals cases sent
    all_goals rfl
  induction left generalizing attempt with
  | zero => exact once attempt sent
  | succ left ih =>
    unfold broadcastExact at sent
    split at sent
    · rename_i first
      cases sent
      exact once attempt first
    · split at sent
      · cases sent
      · exact ih sent

def RoundReady (network : Network) (keccak256 : Calldata → Hash) (transactionHash : SignedTransaction → Hash)
    (limits : JobId → ExecutionLimits) (args : SendArgs) (replies : SendReplies) (nonce gas round : Nat)
    (previous : Option Nat) (state : State) : Prop :=
  OthersCarried keccak256 transactionHash limits args.slot state ∧
    (HashesCarried keccak256 transactionHash limits state ∨
      SignsNext network transactionHash limits args replies nonce gas round previous state.journal)

theorem firstMark_triple {nonce gas : Nat} :
    Triple
      (fun state => HashesCarried keccak256 transactionHash limits state ∧
        ∀ row, state.journal.get? args.slot = some row →
          row.txHash = none ∨ Records keccak256 args nonce row ∨
            SignsNext network transactionHash limits args replies nonce gas 0 none state.journal)
      (noteTransaction (slotMark keccak256 args .sending (some nonce) none))
      (fun _ => RoundReady network keccak256 transactionHash limits args replies nonce gas 0 none)
      (HashesCarried keccak256 transactionHash limits) := by
  refine noteTransaction_triple ?_ fun state before _ => before.1
  rintro state journal ⟨carried, ready⟩ marked
  have others : OthersCarried keccak256 transactionHash limits args.slot state := carried.others
  refine ⟨mark_others rfl marked others, ?_⟩
  have clean : RowSigned keccak256 transactionHash limits state.signed
      ((slotMark keccak256 args .sending (some nonce) none).merge (state.journal.get? args.slot)) →
      HashesCarried keccak256 transactionHash limits { state with journal } := mark_carried rfl marked others
  cases read : state.journal.get? args.slot with
  | none =>
    rw [read] at clean
    exact Or.inl (clean fun hash recorded => nomatch recorded)
  | some row =>
    rw [read] at clean
    rcases ready row read with unhashed | records | signs
    · refine Or.inl (clean fun hash recorded => ?_)
      rw [show ((slotMark keccak256 args .sending (some nonce) none).merge (some row)).txHash = row.txHash from rfl,
        unhashed] at recorded
      cases recorded
    · obtain ⟨job, target, calldata, known⟩ := records
      exact Or.inl (clean ((carried row (Table.get?_mem read)).congr job.symm target.symm calldata.symm known.symm rfl))
    · obtain ⟨gasPrice, priced, free⟩ := signs
      refine Or.inr ⟨gasPrice, priced, fun other member apart => ?_⟩
      rcases (mem_markTransaction marked).mp member with rfl | ⟨old, _⟩
      · exact absurd merge_key apart
      · exact free other old apart

theorem noteStep_triple {P : State → Prop} {E : State → Prop} {mark : StepMark}
    (keeps : ∀ state steps, P state → P { state with steps }) : Triple P (noteStep mark) (fun _ => P) E :=
  triple_write fun state before => keeps state _ before

variable {hash : Hash}

theorem hashFree_of_unused (own : mark.txHash = some hash)
    (unused : ∀ other ∈ journal.rows, other.key ≠ mark.key → other.txHash ≠ some hash) :
    journal.HashFree (mark.merge (journal.get? mark.key)) := by
  have merged : ∀ row, (mark.merge row).txHash = some hash := by
    intro row
    cases row with
    | none => exact own
    | some row => simp [TransactionMark.merge, TransactionMark.update, own]
  intro other member apart _
  rw [merged]
  rw [merge_key] at apart
  exact unused other member apart

theorem signRound_triple {nonce gas round : Nat} {previous : Option Nat}
    (owned : replies.account = (limits args.jobId).owner) :
    Triple (RoundReady network keccak256 transactionHash limits args replies nonce gas round previous)
      (signRound network keccak256 transactionHash limits args replies nonce gas round previous)
      (fun signed state => HashesCarried keccak256 transactionHash limits state ∧ SlotSent keccak256 args nonce signed.2 state)
      (HashesCarried keccak256 transactionHash limits) := by
  refine triple_bind (Q := fun gasPrice state =>
    RoundReady network keccak256 transactionHash limits args replies nonce gas round previous state ∧
      gasPriceFor network limits args replies gas round previous = .ok gasPrice)
    (triple_reply (fun state gasPrice ready priced => ⟨ready, priced⟩) fun state error ready unpriced => ?_) fun gasPrice => ?_
  · rcases ready.2 with carried | ⟨gasPrice, priced, _⟩
    · exact carried
    · rw [unpriced] at priced; cases priced
  let signed := signTransaction network args replies nonce gas gasPrice
  let unused (state : State) : Prop := ∀ other ∈ state.journal.rows, other.key ≠ args.slot →
    other.txHash ≠ some (transactionHash signed)
  let SignedReady (state : State) : Prop := signed ∈ state.signed ∧
    OthersCarried keccak256 transactionHash limits args.slot state ∧
      (HashesCarried keccak256 transactionHash limits state ∨ unused state)
  refine triple_bind (Q := fun _ => SignedReady) (triple_write ?_) fun _ => ?_
  · rintro state ⟨⟨others, ready⟩, priced⟩
    refine ⟨List.mem_cons_self, fun row member apart => (others row member apart).mono, ?_⟩
    rcases ready with carried | ⟨price, same, free⟩
    · exact Or.inl fun row member => (carried row member).mono
    · rw [priced] at same
      cases same
      exact Or.inr free
  refine triple_bind (noteStep_triple fun _ _ before => before) fun _ => ?_
  refine triple_bind (noteTransaction_triple (Q := fun _ state =>
    HashesCarried keccak256 transactionHash limits state ∧ SlotSent keccak256 args nonce (transactionHash signed) state)
    ?_ ?_) fun _ => triple_pure fun _ after => after
  · rintro state journal ⟨signedIn, others, _⟩ marked
    have records : Records keccak256 args nonce ((slotMark keccak256 args .sending (some nonce)
        (some (transactionHash signed))).merge (state.journal.get? args.slot)) := slotMark_records
    have hashed : ((slotMark keccak256 args .sending (some nonce) (some (transactionHash signed))).merge
        (state.journal.get? args.slot)).txHash = some (transactionHash signed) := by
      cases state.journal.get? args.slot <;> rfl
    refine ⟨mark_carried rfl marked others fun hash recorded => ?_, _, markTransaction_get? marked, records, hashed⟩
    cases hashed.symm.trans recorded
    exact ⟨signed, signedIn, rfl, signTransaction_carries owned records⟩
  · rintro state ⟨_, _, carried | free⟩ refused
    · exact carried
    · let mark := slotMark keccak256 args .sending (some nonce) (some (transactionHash signed))
      have own : mark.txHash = some (transactionHash signed) := rfl
      have accepted := hashFree_of_unused own free
      exact absurd (dif_pos accepted) (refused _)

theorem feeLoop_triple {nonce gas round : Nat} {previous : Option Nat} {left : Nat}
    (owned : replies.account = (limits args.jobId).owner) :
    Triple (RoundReady network keccak256 transactionHash limits args replies nonce gas round previous)
      (feeLoop network keccak256 transactionHash limits args replies nonce gas round previous left)
      (fun hash state => HashesCarried keccak256 transactionHash limits state ∧ SlotSent keccak256 args nonce hash state)
      (HashesCarried keccak256 transactionHash limits) := by
  induction left generalizing round previous with
  | zero =>
    unfold feeLoop
    refine triple_bind (signRound_triple owned) fun signed => ?_
    dsimp only
    split
    · rename_i sent
      cases broadcastExact_ok sent
      exact triple_pure fun _ after => after
    · exact triple_fail fun _ after => after.1
  | succ left ih =>
    unfold feeLoop
    refine triple_bind (signRound_triple owned) fun signed => ?_
    dsimp only
    split
    · rename_i sent
      cases broadcastExact_ok sent
      exact triple_pure fun _ after => after
    · split
      · exact triple_fail fun _ after => after.1
      · exact triple_weaken ih (fun state after => ⟨after.1.others, Or.inl after.1⟩) (fun _ _ after => after) fun _ after => after

theorem repeatedMark_triple {nonce : Nat}
    (slot : mark.key = args.slot) (job : mark.jobId = args.jobId) (target : mark.txTo = args.tx.target)
    (calldata : mark.calldataHash = keccak256 args.tx.data) (known : mark.nonce = none ∨ mark.nonce = some nonce)
    (hashed : mark.txHash = some hash) :
    Triple (fun state => HashesCarried keccak256 transactionHash limits state ∧ SlotSent keccak256 args nonce hash state)
      (noteTransaction mark)
      (fun _ state => HashesCarried keccak256 transactionHash limits state ∧ SlotSent keccak256 args nonce hash state)
      (HashesCarried keccak256 transactionHash limits) := by
  refine noteTransaction_triple ?_ fun state before _ => before.1
  rintro state journal ⟨carried, row, read, records, recorded⟩ marked
  obtain ⟨rowJob, rowTarget, rowCalldata, rowNonce⟩ := records
  have merged : mark.merge (state.journal.get? args.slot) = mark.update row := by rw [read]; rfl
  have nonce_eq : (mark.update row).nonce = some nonce := by
    rcases known with unknown | known
    · simp [TransactionMark.update, unknown, rowNonce]
    · simp [TransactionMark.update, known]
  have hash_eq : (mark.update row).txHash = some hash := by simp [TransactionMark.update, hashed]
  have own : RowSigned keccak256 transactionHash limits state.signed (mark.update row) :=
    (carried row (Table.get?_mem read)).congr (job.trans rowJob.symm) (target.trans rowTarget.symm)
      (calldata.trans rowCalldata.symm) (nonce_eq.trans rowNonce.symm) (hash_eq.trans recorded.symm)
  refine ⟨mark_carried slot marked carried.others (merged ▸ own), mark.update row, ?_, ⟨job, target, calldata, nonce_eq⟩, hash_eq⟩
  rw [← slot, markTransaction_get? marked, slot, merged]

theorem settle_triple {nonce : Nat} {receipt : Receipt} :
    Triple (fun state => HashesCarried keccak256 transactionHash limits state ∧ SlotSent keccak256 args nonce hash state)
      (settle keccak256 args replies hash receipt) (fun _ => HashesCarried keccak256 transactionHash limits)
      (HashesCarried keccak256 transactionHash limits) := by
  unfold settle
  split
  · refine triple_bind (noteStep_triple fun _ _ before => before) fun _ => ?_
    refine triple_bind (repeatedMark_triple rfl rfl rfl rfl (Or.inl rfl) rfl) fun _ => ?_
    exact triple_fail fun _ after => after.1
  · refine triple_bind (noteStep_triple fun _ _ before => before) fun _ => ?_
    refine triple_bind (repeatedMark_triple rfl rfl rfl rfl (Or.inl rfl) rfl) fun _ => ?_
    refine triple_bind (triple_reply (fun _ _ after _ => after) fun _ _ after _ => after.1) fun _ => ?_
    exact triple_pure fun _ after => after.1

theorem preflight_owner {checked : Nat × Nat}
    (passed : preflight network limits args replies = .ok checked) : replies.account = (limits args.jobId).owner := by
  obtain ⟨_, _, passed⟩ := Fallible.bind_ok passed
  obtain ⟨_, owned, _⟩ := Fallible.bind_ok passed
  exact Fallible.demand_ok.mp owned

theorem sendTracked_triple :
    Triple (fun state => HashesCarried keccak256 transactionHash limits state ∧
        SlotReady network keccak256 transactionHash limits state args replies)
      (sendTracked network keccak256 transactionHash limits args replies)
      (fun _ => HashesCarried keccak256 transactionHash limits) (HashesCarried keccak256 transactionHash limits) := by
  unfold sendTracked
  refine triple_bind (Q := fun checked state => replies.account = (limits args.jobId).owner ∧
    HashesCarried keccak256 transactionHash limits state ∧ ∀ row, state.journal.get? args.slot = some row →
      row.txHash = none ∨ Records keccak256 args checked.1 row ∨
        SignsNext network transactionHash limits args replies checked.1 checked.2 0 none state.journal)
    (triple_reply ?_ fun _ _ before _ => before.1) ?_
  · rintro state ⟨nonce, gas⟩ ⟨carried, ready⟩ checked
    exact ⟨preflight_owner checked, carried, ready nonce gas checked⟩
  · rintro ⟨nonce, gas⟩
    refine triple_assume fun owned => ?_
    refine triple_bind (noteStep_triple fun _ _ before => before) fun _ => ?_
    refine triple_bind firstMark_triple fun _ => ?_
    refine triple_bind (feeLoop_triple owned) fun hash => ?_
    refine triple_bind (noteStep_triple fun _ _ before => before) fun _ => ?_
    refine triple_bind (repeatedMark_triple rfl rfl rfl rfl (Or.inr rfl) rfl) fun _ => ?_
    exact triple_bind (triple_reply (fun _ _ after _ => after) fun _ _ after _ => after.1) fun receipt => settle_triple

/-- What happens to the journal of a job: calls of the sender, and verdicts of the recovery between them. -/
inductive JournalEvent
  | send (args : SendArgs) (replies : SendReplies)
  | reconcile (jobId : JobId) (stepIndex txIndex : Nat) (verdict : Verdict) (blockNumber : Option Nat)
      (errorCode : Option ErrorCode)

section
variable (network : Network) (keccak256 : Calldata → Hash) (transactionHash : SignedTransaction → Hash)
variable (limits : JobId → ExecutionLimits)

def step (state : State) : JournalEvent → State
  | .send args replies => Durable.left (sendTracked network keccak256 transactionHash limits args replies) state
  | .reconcile jobId stepIndex txIndex verdict blockNumber errorCode =>
    { state with
      journal := reconcileJobTransaction state.journal jobId stepIndex txIndex verdict blockNumber errorCode }

def EventReady (state : State) : JournalEvent → Prop
  | .send args replies => SlotReady network keccak256 transactionHash limits state args replies
  | .reconcile .. => True

def initialState (steps : List JobStep) : State where
  steps := steps
  journal := Journal.empty
  signed := []

def HonestChain (signed : List SignedTransaction) (rpc : Recovery.Rpc) : Prop :=
  ∀ tx ∈ signed, ∀ seen, rpc.transactions (transactionHash tx) = some seen → seen = tx.onChain

def NeverAmbiguous (state : State) : Prop :=
  ∀ rpc, HonestChain transactionHash state.signed rpc → ∀ row ∈ state.journal.rows, ∀ hash receipt transaction fact,
    row.txHash = some hash → rpc.getTransactionReceipt (.receipt row.key) hash = some receipt →
    rpc.getTransaction (.transaction row.key) hash = some transaction →
    Recovery.transactionFact keccak256 rpc state.journal (limits row.jobId).owner row = .ok fact → fact.state ≠ .ambiguous

variable {network keccak256 transactionHash limits}

theorem step_carried {event : JournalEvent} (carried : HashesCarried keccak256 transactionHash limits state)
    (ready : EventReady network keccak256 transactionHash limits state event) :
    HashesCarried keccak256 transactionHash limits (step network keccak256 transactionHash limits state event) := by
  cases event with
  | send args replies => exact left_keeps sendTracked_triple ⟨carried, ready⟩
  | reconcile jobId stepIndex txIndex verdict blockNumber errorCode =>
    intro row member
    rcases mem_reconcileJobTransaction member with kept | ⟨old, oldIn, rfl⟩
    · exact carried row kept
    · exact (carried old oldIn).congr rfl rfl rfl rfl rfl

theorem getTransaction_found {rpc : Recovery.Rpc} {read : Recovery.RpcRead} {transaction : Transaction}
    (seen : rpc.getTransaction read hash = some transaction) : rpc.transactions hash = some transaction := by
  unfold Recovery.Rpc.getTransaction at seen
  split at seen
  · cases seen
  · exact seen

theorem neverAmbiguous_of_carried (carried : HashesCarried keccak256 transactionHash limits state) :
    NeverAmbiguous keccak256 transactionHash limits state := by
  intro rpc honest row member hash receipt transaction fact recorded mined seen read
  obtain ⟨tx, signedIn, same, target, calldata, _, signer⟩ := carried row member hash recorded
  have shown := honest tx signedIn transaction (by rw [same]; exact getTransaction_found seen)
  have matched : Recovery.matchesRow keccak256 (limits row.jobId).owner transaction row = true := by
    simp [Recovery.matchesRow, shown, SignedTransaction.onChain, signer, target, calldata]
  simp only [Recovery.transactionFact, recorded, mined, seen, matched, Bool.not_true, Bool.false_eq_true, if_false] at read
  cases read
  simp only [Recovery.factOf]
  split <;> simp

end

/-- Answers to a call that signs nonce `nonce` at the suggested price and gets the given receipts. -/
def plainReplies (nonce suggested : Nat) (receiptPolls : List (Except ProviderError Receipt)) : SendReplies where
  executorPaused := false
  account := 1
  chainId _ := .ok 1
  pendingCount _ := .ok nonce
  estimateGas _ := .ok 100
  fees _ _ := .ok (suggested, none)
  sendRaw _ _ := .ok nonce
  visible _ _ := false
  receiptPolls := receiptPolls
  gasValuation := .ok ()

def revertedReceipt : Receipt where
  transactionHash := 4
  status := .reverted
  blockNumber := 20
  gasUsed := 1
  effectiveGasPrice := 1
  logs := []

def reusedSlot (suggested : Nat) : List JournalEvent :=
  let call (target : Address) : SendArgs :=
    { jobId := 1, stepIndex := 5, txIndex := some 0, tx := { target := target, data := [], value := none } }
  [.send (call 7) (plainReplies 4 1 [.ok revertedReceipt]), .send (call 8) (plainReplies 5 suggested [])]

def plainNetwork : Network := { chainId := 1, wrappedNative := 3, rpcRetryCount := 2 }

def plainLimits (_ : JobId) : ExecutionLimits :=
  { owner := 1, quoteToken := 0, maxGasPriceWei := some 10, maxGasQuotePerTx := none }

end LpTerminal.SlotReuse
