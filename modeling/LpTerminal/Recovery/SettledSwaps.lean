import LpTerminal.Recovery.SwapJob

/-!
What was confirmed stays: every settled swap still holds its slot, and the plan still holds its record,
up to a relation on records.
-/

namespace LpTerminal.SettledSwaps

open Durable FeeTax Rebalance Receipts Store SwapJob

def swapOf (intent : SwapIntent) : SwapIntent := { intent with quotedOut := 0 }

def SameSwap (first second : SwapPlanRecord) : Prop :=
  swapOf (plannedIntent first) = swapOf (plannedIntent second)

section
variable (R : SwapPlanRecord → SwapPlanRecord → Prop) (job : Job) (chain : ChainFacts job.owner)

def Succeeded (row : JobTransaction) : Prop :=
  ∃ hash, row.txHash = some hash ∧ (chain.receiptOf hash).status = .success

structure Held (state : JobState) (swap : SettledSwap) : Prop where
  slot : swap.row.key = swapSlot job swap.row.txIndex
  confirmed : swap.row.state = .confirmed
  succeeded : Succeeded job chain swap.row
  index : swap.record.txIndex = swap.row.txIndex
  row : state.journal.get? (swapSlot job swap.row.txIndex) = some swap.row
  record : ∃ record, state.swapPlan.get? swap.row.txIndex = some record ∧ R swap.record record

/-- The settled swaps are the confirmed ones, each in a slot of its own; and a slot has a record before it has a row. -/
structure Intact (state : JobState) : Prop where
  held : ∀ swap ∈ state.settled, Held R job chain state swap
  apart : state.settled.Pairwise fun first second => first.row.txIndex ≠ second.row.txIndex
  complete : ∀ txIndex row, state.journal.get? (swapSlot job txIndex) = some row → row.state = .confirmed →
    ∃ swap ∈ state.settled, swap.row = row
  planned : ∀ txIndex row, state.journal.get? (swapSlot job txIndex) = some row →
    ∃ record, state.swapPlan.get? txIndex = some record

end

def Free (state : JobState) (txIndex : Nat) : Prop := ∀ swap ∈ state.settled, swap.row.txIndex ≠ txIndex

section
variable {R : SwapPlanRecord → SwapPlanRecord → Prop} {job : Job} {chain : ChainFacts job.owner} {state start : JobState}
variable {txIndex : Nat}

theorem Intact.free (intact : Intact R job chain state) (free : Unconfirmed state (swapSlot job txIndex)) : Free state txIndex := by
  rintro swap member rfl
  obtain held := intact.held swap member
  exact free swap.row held.row held.confirmed

theorem Intact.unconfirmed (intact : Intact R job chain state) (free : Free state txIndex) : Unconfirmed state (swapSlot job txIndex) := by
  intro row read confirmed
  obtain ⟨swap, member, rfl⟩ := intact.complete txIndex row read confirmed
  have key : swap.row.key = swapSlot job txIndex := Table.get?_key read
  exact free swap member (slotKey_inj.mp key).2.2

theorem Intact.free_next (intact : Intact R job chain state) : Free state (nextTransactionIndex state.journal job.id swapStep) := by
  refine intact.free fun row read confirmed => ?_
  have key : row.key = swapSlot job (nextTransactionIndex state.journal job.id swapStep) := Table.get?_key read
  obtain ⟨sameJob, sameStep, sameIndex⟩ := slotKey_inj.mp key
  have listed : row ∈ stepTransactions state.journal job.id swapStep := by
    unfold stepTransactions jobTransactions
    simp only [List.mem_filter, decide_eq_true_eq]
    exact ⟨⟨Table.get?_mem read, sameJob⟩, sameStep⟩
  unfold nextTransactionIndex at sameIndex
  split at sameIndex
  · rename_i open_ found
    have openMember := List.mem_of_find?_eq_some found
    unfold stepTransactions jobTransactions at openMember
    simp only [List.mem_filter, decide_eq_true_eq] at openMember
    obtain ⟨⟨member, openJob⟩, openStep⟩ := openMember
    have sameKey : open_.key = row.key :=
      slotKey_inj.mpr ⟨openJob.trans sameJob.symm, openStep.trans sameStep.symm, sameIndex.symm⟩
    have same : open_ = row := Table.eq_of_key member (Table.get?_mem read) sameKey
    have unfinished := List.find?_some found
    rw [same] at unfinished
    simp [Store.unfinished, confirmed] at unfinished
  · split at sameIndex
    · rename_i none
      have empty := List.max?_eq_none_iff.mp none
      rw [List.map_eq_nil_iff] at empty
      rw [empty] at listed
      cases listed
    · rename_i last found
      have most := (List.max?_eq_some_iff.mp found).2 row.txIndex (List.mem_map_of_mem listed)
      omega

theorem le_afterRecords {record : SwapPlanRecord} (member : record ∈ state.swapPlan.rows) : record.txIndex < afterRecords state := by
  unfold afterRecords
  have bound : ∀ (indexes : List Nat) (start : Nat), (start ≤ indexes.foldl max start) ∧
      ∀ index ∈ indexes, index ≤ indexes.foldl max start := by
    intro indexes
    induction indexes with
    | nil => exact fun start => ⟨le_refl _, fun _ member => absurd member List.not_mem_nil⟩
    | cons first rest ih =>
      intro start
      obtain ⟨least, each⟩ := ih (max start first)
      refine ⟨(le_max_left _ _).trans least, fun index member => ?_⟩
      rcases List.mem_cons.mp member with rfl | later
      · exact (le_max_right _ _).trans least
      · exact each index later
  exact (bound _ 0).2 _ (List.mem_map_of_mem (f := fun record : SwapPlanRecord => record.txIndex + 1) member)

theorem Intact.free_after (intact : Intact R job chain state) (after : afterRecords state ≤ txIndex) : Free state txIndex := by
  rintro swap member rfl
  obtain ⟨record, read, _⟩ := (intact.held swap member).record
  have before := le_afterRecords (Table.get?_mem read)
  rw [Table.get?_key read] at before
  omega

/-- Nothing of the swaps changed: their rows, their records, their audits, the tax, the capital and the history. -/
structure SwapsSame (job : Job) (start state : JobState) : Prop where
  rows : ∀ txIndex, state.journal.get? (swapSlot job txIndex) = start.journal.get? (swapSlot job txIndex)
  plan : state.swapPlan = start.swapPlan
  audits : state.executedSwaps = start.executedSwaps
  tax : state.feeTax = start.feeTax
  capital : state.capital = start.capital
  settled : state.settled = start.settled

theorem SwapsSame.refl (state : JobState) : SwapsSame job state state := ⟨fun _ => rfl, rfl, rfl, rfl, rfl, rfl⟩

theorem SwapsSame.trans {middle : JobState} (first : SwapsSame job start middle) (second : SwapsSame job middle state) :
    SwapsSame job start state :=
  ⟨fun txIndex => (second.rows txIndex).trans (first.rows txIndex), second.plan.trans first.plan,
    second.audits.trans first.audits, second.tax.trans first.tax, second.capital.trans first.capital,
    second.settled.trans first.settled⟩

/-- The slots hold what they held: their rows, their records and the history. -/
structure SlotsSame (job : Job) (start state : JobState) : Prop where
  rows : ∀ txIndex, state.journal.get? (swapSlot job txIndex) = start.journal.get? (swapSlot job txIndex)
  plan : state.swapPlan = start.swapPlan
  settled : state.settled = start.settled

theorem SwapsSame.slots (same : SwapsSame job start state) : SlotsSame job start state := ⟨same.rows, same.plan, same.settled⟩

theorem SlotsSame.trans {middle : JobState} (first : SlotsSame job start middle) (second : SlotsSame job middle state) :
    SlotsSame job start state :=
  ⟨fun txIndex => (second.rows txIndex).trans (first.rows txIndex), second.plan.trans first.plan,
    second.settled.trans first.settled⟩

theorem Intact.slotsSame (intact : Intact R job chain start) (same : SlotsSame job start state) : Intact R job chain state := by
  refine ⟨fun swap member => ?_, by rw [same.settled]; exact intact.apart, fun txIndex row read confirmed => ?_,
    fun txIndex row read => ?_⟩
  · rw [same.settled] at member
    have held := intact.held swap member
    exact ⟨held.slot, held.confirmed, held.succeeded, held.index, (same.rows _).trans held.row, by rw [same.plan]; exact held.record⟩
  · rw [same.rows] at read
    rw [same.settled]
    exact intact.complete txIndex row read confirmed
  · rw [same.rows] at read
    rw [same.plan]
    exact intact.planned txIndex row read

theorem Intact.same (intact : Intact R job chain start) (same : SwapsSame job start state) : Intact R job chain state :=
  intact.slotsSame same.slots

theorem Free.same (free : Free start txIndex) (same : SwapsSame job start state) : Free state txIndex := by
  unfold Free
  rw [same.settled]
  exact free

theorem SwapsSame.land (same : SwapsSame job start state) (stepIndex : Nat) (hash : Hash) :
    SwapsSame job start (land job chain stepIndex hash state) := by
  unfold SwapJob.land
  split
  · exact same
  · exact ⟨same.rows, same.plan, same.audits, same.tax, same.capital, same.settled⟩

theorem trackedSend_same {stepIndex : Nat} (off : stepIndex ≠ swapStep) (index : Nat) (send : Send) :
    Keeps (SwapsSame job start) (trackedSend job chain stepIndex index send) := by
  refine trackedSend_keeps (fun state hash error => note_keeps fun state journal same marked => ?_)
    (fun hash state same => same.land stepIndex hash) fun state same => by rw [settle_off off]; exact same
  refine ⟨fun txIndex => ?_, same.plan, same.audits, same.tax, same.capital, same.settled⟩
  refine (markTransaction_frame marked fun swap => off ?_).trans (same.rows txIndex)
  exact (slotKey_inj.mp swap).2.1.symm

theorem sendAllowances_same {stepIndex : Nat} (off : stepIndex ≠ swapStep) (index : Nat) (sends : List Send) :
    Keeps (SwapsSame job start) (sendAllowances job chain stepIndex index sends) := by
  induction sends generalizing index with
  | nil => exact keeps_pure ()
  | cons send rest ih => exact keeps_bind (trackedSend_same off index send) fun _ => ih (index + 1)

theorem allowancesAt_same {stepIndex : Nat} (off : stepIndex ≠ swapStep) (sends : Except ErrorCode (List Send)) :
    Keeps (SwapsSame job start) (allowancesAt job chain stepIndex sends) :=
  keeps_bind (keeps_reply sends) fun _ => keeps_bind keeps_read fun _ => sendAllowances_same off _ _

theorem driftWallet_same (drift : Address → ℤ) : Keeps (SwapsSame job start) (driftWallet drift) :=
  keeps_write fun _ same => ⟨same.rows, same.plan, same.audits, same.tax, same.capital, same.settled⟩

def SlotOnly (job : Job) (state : JobState) (journal : Journal) (txIndex : Nat) : Prop :=
  ∀ other, other ≠ txIndex → journal.get? (swapSlot job other) = state.journal.get? (swapSlot job other)

theorem Intact.heldAside (intact : Intact R job chain state) (free : Free state txIndex) {journal : Journal}
    (only : SlotOnly job state journal txIndex) :
    ∀ swap ∈ state.settled, Held R job chain { state with journal } swap := by
  intro swap member
  have held := intact.held swap member
  exact ⟨held.slot, held.confirmed, held.succeeded, held.index, (only _ (free swap member)).trans held.row, held.record⟩

theorem Intact.opened (intact : Intact R job chain state) (free : Free state txIndex) {journal : Journal}
    (only : SlotOnly job state journal txIndex) (record : ∃ record, state.swapPlan.get? txIndex = some record)
    (unconfirmed : ∀ row, journal.get? (swapSlot job txIndex) = some row → row.state ≠ .confirmed) :
    Intact R job chain { state with journal } := by
  refine ⟨intact.heldAside free only, intact.apart, fun other row read confirmed => ?_, fun other row read => ?_⟩
  · by_cases same : other = txIndex
    · subst same
      exact absurd confirmed (unconfirmed row read)
    · rw [only other same] at read
      exact intact.complete other row read confirmed
  · by_cases same : other = txIndex
    · subst same
      exact record
    · rw [only other same] at read
      exact intact.planned other row read

theorem Intact.settles (intact : Intact R job chain state) (free : Free state txIndex) {journal : Journal}
    (only : SlotOnly job state journal txIndex) {row : JobTransaction} {record : SwapPlanRecord}
    (placed : journal.get? (swapSlot job txIndex) = some row) (confirmed : row.state = .confirmed) (succeeded : Succeeded job chain row)
    (recorded : state.swapPlan.get? txIndex = some record) (same : R record record) :
    settle job swapStep txIndex { state with journal } = { state with journal, settled := ⟨row, record⟩ :: state.settled } ∧
      row.txIndex = txIndex ∧ Intact R job chain { state with journal, settled := ⟨row, record⟩ :: state.settled } := by
  have key : row.key = swapSlot job txIndex := Table.get?_key placed
  have index : row.txIndex = txIndex := (slotKey_inj.mp key).2.2
  have settled : settle job swapStep txIndex { state with journal } =
      { state with journal, settled := ⟨row, record⟩ :: state.settled } := by
    unfold settle
    dsimp only
    rw [show slotKey job.id swapStep txIndex = swapSlot job txIndex from rfl, placed, recorded]
    rfl
  refine ⟨settled, index, fun swap member => ?_, ?_, fun other found read confirmed => ?_, fun other found read => ?_⟩
  · rcases List.mem_cons.mp member with rfl | old
    · refine ⟨by rw [key, index], confirmed, succeeded, ?_, by rw [index]; exact placed, record, by rw [index]; exact recorded, same⟩
      exact (Table.get?_key recorded).trans index.symm
    · obtain ⟨slot, isConfirmed, hasSucceeded, atIndex, atRow, atRecord⟩ := intact.heldAside free only swap old
      exact ⟨slot, isConfirmed, hasSucceeded, atIndex, atRow, atRecord⟩
  · refine List.pairwise_cons.mpr ⟨fun other member => ?_, intact.apart⟩
    exact fun clash => free other member (clash.symm.trans index)
  · by_cases own : other = txIndex
    · subst own
      rw [placed] at read
      cases read
      exact ⟨_, List.mem_cons_self, rfl⟩
    · rw [only other own] at read
      obtain ⟨swap, member, at_⟩ := intact.complete other found read confirmed
      exact ⟨swap, List.mem_cons_of_mem _ member, at_⟩
  · by_cases own : other = txIndex
    · subst own
      exact ⟨record, recorded⟩
    · rw [only other own] at read
      exact intact.planned other found read

theorem Intact.recorded (intact : Intact R job chain state) {record : SwapPlanRecord}
    (own : ∀ swap ∈ state.settled, swap.row.txIndex = record.txIndex → R swap.record record) :
    Intact R job chain { state with swapPlan := state.swapPlan.put record } := by
  refine ⟨fun swap member => ?_, intact.apart, intact.complete, fun txIndex row read => ?_⟩
  · have held := intact.held swap member
    refine ⟨held.slot, held.confirmed, held.succeeded, held.index, held.row, ?_⟩
    dsimp only
    by_cases same : swap.row.txIndex = record.txIndex
    · rw [same, Table.get?_put_same]
      exact ⟨record, rfl, own swap member same⟩
    · rw [Table.get?_put_other same]
      exact held.record
  · dsimp only
    by_cases same : txIndex = record.txIndex
    · rw [same, Table.get?_put_same]
      exact ⟨record, rfl⟩
    · rw [Table.get?_put_other same]
      exact intact.planned txIndex row read

/-- What a send in a free slot leaves of the swaps: at most its own swap is settled. -/
structure SentFrom (txIndex : Nat) (record : SwapPlanRecord) (start state : JobState) : Prop where
  plan : state.swapPlan = start.swapPlan
  audits : state.executedSwaps = start.executedSwaps
  tax : state.feeTax = start.feeTax
  settled : state.settled = start.settled ∨
    ∃ row, row.txIndex = txIndex ∧ state.settled = ⟨row, record⟩ :: start.settled

def Settles (job : Job) (chain : ChainFacts job.owner) (txIndex : Nat) (record : SwapPlanRecord) (start : JobState)
    (receipt : Receipt) (state : JobState) : Prop :=
  ∃ row hash, row.txIndex = txIndex ∧ row.txHash = some hash ∧ receipt = chain.receiptOf hash ∧ receipt.status = .success ∧
    state.settled = ⟨row, record⟩ :: start.settled ∧ state.wallet = (land job chain swapStep hash start).wallet

theorem note_run (mark : TransactionMark) (state : JobState) :
    (note mark).run state = match markTransaction state.journal mark with
      | .ok journal => (.ok (), { state with journal })
      | .error e => (.error e, state) := by
  unfold note tryWrite
  cases marked : markTransaction state.journal mark <;> simp only [marked, Except.map]

theorem sendMark_only {send : Send} {transaction : TransactionState} {hash : Option Hash} {error : Option ErrorCode}
    {journal : Journal} (marked : markTransaction state.journal (sendMark job swapStep txIndex send transaction hash error) = .ok journal) :
    SlotOnly job state journal txIndex := by
  intro other different
  refine markTransaction_frame marked fun same => different ?_
  exact (slotKey_inj.mp same).2.2

theorem sendMark_row {send : Send} {transaction : TransactionState} {hash : Option Hash} {error : Option ErrorCode}
    {journal : Journal} (marked : markTransaction state.journal (sendMark job swapStep txIndex send transaction hash error) = .ok journal) :
    ∃ row, journal.get? (swapSlot job txIndex) = some row ∧ row.state = transaction ∧
      ∀ known, hash = some known → row.txHash = some known := by
  let mark := sendMark job swapStep txIndex send transaction hash error
  have row : journal.get? (swapSlot job txIndex) = some (mark.merge (state.journal.get? mark.key)) := markTransaction_get? marked
  refine ⟨_, row, ?_, fun known same => ?_⟩
  · cases state.journal.get? mark.key <;> rfl
  · subst same
    cases state.journal.get? mark.key <;> rfl

theorem Intact.marked (intact : Intact R job chain state) (free : Free state txIndex)
    (record : ∃ record, state.swapPlan.get? txIndex = some record) {send : Send} {transaction : TransactionState}
    {hash : Option Hash} {error : Option ErrorCode} {journal : Journal} (open_ : transaction ≠ .confirmed)
    (marked : markTransaction state.journal (sendMark job swapStep txIndex send transaction hash error) = .ok journal) :
    Intact R job chain { state with journal } := by
  refine intact.opened free (sendMark_only marked) record fun row read confirmed => open_ ?_
  obtain ⟨placed, at_, state_, _⟩ := sendMark_row marked
  rw [at_] at read
  cases read
  exact state_.symm.trans confirmed

theorem trackedSend_swap (intact : Intact R job chain start) (free : Free start txIndex) {record : SwapPlanRecord}
    (recorded : start.swapPlan.get? txIndex = some record) (same : R record record) (send : Send) :
    Triple (· = start) (trackedSend job chain swapStep txIndex send)
      (fun receipt state => Intact R job chain state ∧ SentFrom txIndex record start state ∧
        Settles job chain txIndex record start receipt state)
      (fun state => Intact R job chain state ∧ SentFrom txIndex record start state) := by
  rintro state rfl
  have unsent : ∀ journal, SentFrom txIndex record state { state with journal } := fun journal => ⟨rfl, rfl, rfl, Or.inl rfl⟩
  unfold trackedSend
  cases send.outcome with
  | refused error => exact ⟨intact, unsent state.journal⟩
  | unsent hash error =>
    rw [bind_run, note_run]
    cases marked : markTransaction state.journal (sendMark job swapStep txIndex send .sending hash none) with
    | error e => exact ⟨intact, unsent state.journal⟩
    | ok journal => exact ⟨intact.marked free ⟨record, recorded⟩ (by decide) marked, unsent journal⟩
  | unseen hash error =>
    rw [bind_run, note_run]
    cases marked : markTransaction state.journal (sendMark job swapStep txIndex send .sent (some hash) none) with
    | error e => exact ⟨intact, unsent state.journal⟩
    | ok journal => exact ⟨intact.marked free ⟨record, recorded⟩ (by decide) marked, unsent journal⟩
  | mined hash valuation =>
    rw [bind_run, note_run]
    cases marked : markTransaction state.journal (sendMark job swapStep txIndex send .sent (some hash) none) with
    | error e => exact ⟨intact, unsent state.journal⟩
    | ok journal =>
      dsimp only
      rw [run_write_bind]
      -- the transaction is mined: the wallet feels it, whatever its status
      let landed := land job chain swapStep hash { state with journal }
      have opened : Intact R job chain landed :=
        (intact.marked free ⟨record, recorded⟩ (by decide) marked).same ((SwapsSame.refl _).land swapStep hash)
      have sent : SwapsSame job { state with journal } landed := (SwapsSame.refl _).land swapStep hash
      have stillFree : Free landed txIndex := by
        unfold Free
        rw [sent.settled]
        exact free
      have planned : landed.swapPlan.get? txIndex = some record := by rw [sent.plan]; exact recorded
      have wallet : landed.wallet = (land job chain swapStep hash state).wallet := by
        change (land job chain swapStep hash { state with journal }).wallet = _
        unfold land
        dsimp only
        split <;> rfl
      by_cases succeeded : (chain.receiptOf hash).status = .success
      · rw [if_pos succeeded, bind_run, note_run]
        cases confirmed : markTransaction landed.journal (sendMark job swapStep txIndex send .confirmed (some hash) none) with
        | error e => exact ⟨opened, sent.plan, sent.audits, sent.tax, Or.inl sent.settled⟩
        | ok after =>
          obtain ⟨row, placed, isConfirmed, hashed⟩ := sendMark_row confirmed
          have named := hashed hash rfl
          obtain ⟨settled, index, kept⟩ := opened.settles stillFree (sendMark_only confirmed) placed isConfirmed
            ⟨hash, named, succeeded⟩ planned same
          have from_ : SentFrom txIndex record state { landed with journal := after, settled := ⟨row, record⟩ :: landed.settled } :=
            ⟨sent.plan, sent.audits, sent.tax, Or.inr ⟨row, index, by rw [← sent.settled]⟩⟩
          dsimp only
          rw [run_write_bind, settled]
          cases valuation with
          | error e => exact ⟨kept, from_⟩
          | ok priced =>
            exact ⟨kept, from_, row, hash, index, named, rfl, succeeded, by rw [← sent.settled], wallet⟩
      · rw [if_neg succeeded, bind_run, note_run]
        cases failed : markTransaction landed.journal
          (sendMark job swapStep txIndex send .failed (some hash) (some .txReverted)) with
        | error e => exact ⟨opened, sent.plan, sent.audits, sent.tax, Or.inl sent.settled⟩
        | ok after =>
          have kept := opened.marked stillFree ⟨record, planned⟩ (by decide) failed
          exact ⟨kept, sent.plan, sent.audits, sent.tax, Or.inl sent.settled⟩

def refreshed (record : SwapPlanRecord) (prepared : PreparedSwap) : SwapPlanRecord :=
  { record with quotedOut := prepared.amountOut, minOut := some prepared.minOut }

def withRecord (state : JobState) (record : SwapPlanRecord) : JobState :=
  { state with swapPlan := state.swapPlan.put record }

theorem sendRecoverySwap_swap (reflexive : ∀ record, R record record) (intact : Intact R job chain start) (free : Free start txIndex)
    (intent : SwapIntent) (prepared : PreparedSwap) (send : Send) :
    Triple (· = start) (sendRecoverySwap job chain txIndex intent prepared send)
      (fun receipt state => Intact R job chain state ∧ ∃ record, start.swapPlan.get? txIndex = some record ∧
        SentFrom txIndex (refreshed record prepared) (withRecord start (refreshed record prepared)) state ∧
        Settles job chain txIndex (refreshed record prepared) (withRecord start (refreshed record prepared)) receipt state)
      (fun state => Intact R job chain state ∧ (SentFrom txIndex (planRecord txIndex intent) start state ∨
        ∃ record, start.swapPlan.get? txIndex = some record ∧
          SentFrom txIndex (refreshed record prepared) (withRecord start (refreshed record prepared)) state)) := by
  have refused : SentFrom txIndex (planRecord txIndex intent) start start := ⟨rfl, rfl, rfl, Or.inl rfl⟩
  refine triple_bind (Q := fun found state => found = start ∧ state = start) (triple_read fun state same => ⟨same, same⟩)
    fun found => triple_assume fun same => ?_
  subst same
  cases read : found.swapPlan.get? txIndex with
  | none =>
    refine triple_fail fun state same => ?_
    subst same
    exact ⟨intact, Or.inl refused⟩
  | some record =>
    dsimp only
    split
    · refine triple_fail fun state same => ?_
      subst same
      exact ⟨intact, Or.inl refused⟩
    · have key : record.txIndex = txIndex := Table.get?_key read
      have index : (refreshed record prepared).txIndex = txIndex := key
      have written : Intact R job chain (withRecord found (refreshed record prepared)) :=
        intact.recorded fun swap member same => absurd (same.trans index) (free swap member)
      have recorded : (withRecord found (refreshed record prepared)).swapPlan.get? txIndex = some (refreshed record prepared) := by
        have placed := Table.get?_put_same found.swapPlan (refreshed record prepared)
        rwa [index] at placed
      refine triple_bind (Q := fun _ state => state = withRecord found (refreshed record prepared))
        (triple_write fun state same => by rw [same]; rfl) fun _ => ?_
      refine triple_weaken (trackedSend_swap written free recorded (reflexive _) send) (fun _ same => same) ?_ ?_
      · rintro receipt state ⟨kept, sent, settles⟩
        exact ⟨kept, record, rfl, sent, settles⟩
      · rintro state ⟨kept, sent⟩
        exact ⟨kept, Or.inr ⟨record, rfl, sent⟩⟩

/-- What resolving leaves: the plan as it was, and a slot that turned out confirmed settled with its record. -/
structure Resolved (start state : JobState) : Prop where
  plan : state.swapPlan = start.swapPlan
  audits : state.executedSwaps = start.executedSwaps
  tax : state.feeTax = start.feeTax
  kept : ∀ swap ∈ start.settled, swap ∈ state.settled
  settled : ∀ swap ∈ state.settled, swap ∈ start.settled ∨ start.swapPlan.get? swap.row.txIndex = some swap.record

theorem SwapsSame.resolved (same : SwapsSame job start state) : Resolved start state :=
  ⟨same.plan, same.audits, same.tax, fun swap member => by rw [same.settled]; exact member,
    fun swap member => Or.inl (by rw [same.settled] at member; exact member)⟩

theorem Resolved.trans {middle : JobState} (first : Resolved start middle) (second : Resolved middle state) :
    Resolved start state := by
  refine ⟨second.plan.trans first.plan, second.audits.trans first.audits, second.tax.trans first.tax,
    fun swap member => second.kept swap (first.kept swap member), fun swap member => ?_⟩
  rcases second.settled swap member with old | new
  · exact first.settled swap old
  · rw [first.plan] at new
    exact Or.inr new

theorem reconcile_only {row : JobTransaction} {verdict : Verdict} {block : Option Nat} {error : Option ErrorCode} :
    SlotOnly job state (reconcileJobTransaction state.journal row.jobId row.stepIndex row.txIndex verdict block error) row.txIndex := by
  intro other different
  refine reconcileJobTransaction_frame fun same => different ?_
  exact (slotKey_inj.mp same).2.2

theorem reconcile_same {row : JobTransaction} (off : row.stepIndex ≠ swapStep) {verdict : Verdict} {block : Option Nat}
    {error : Option ErrorCode} :
    SwapsSame job state
      { state with journal := reconcileJobTransaction state.journal row.jobId row.stepIndex row.txIndex verdict block error } := by
  refine ⟨fun txIndex => reconcileJobTransaction_frame fun same => off ?_, rfl, rfl, rfl, rfl, rfl⟩
  exact (slotKey_inj.mp same).2.1.symm

theorem resolveRow_aside (landed : Hash → Bool) {row : JobTransaction} (off : row.stepIndex ≠ swapStep) :
    SwapsSame job state (resolveRow job chain landed state row) := by
  unfold resolveRow
  split
  · split
    · exact reconcile_same off
    · dsimp only
      rw [settle_off off]
      have moved := @SwapsSame.land job chain state state (SwapsSame.refl state) row.stepIndex
      split
      · exact (moved _).trans (reconcile_same off)
      · exact (moved _).trans (reconcile_same off)
  · exact SwapsSame.refl state

theorem resolveRow_intact (reflexive : ∀ record, R record record) (landed : Hash → Bool) {row : JobTransaction}
    (own : row.jobId = job.id) (present : state.journal.get? row.key = some row) (intact : Intact R job chain state) :
    Intact R job chain (resolveRow job chain landed state row) ∧ Resolved state (resolveRow job chain landed state row) := by
  by_cases swaps : row.stepIndex = swapStep
  case neg =>
    have same := @resolveRow_aside job chain state landed row swaps
    exact ⟨intact.same same, same.resolved⟩
  unfold resolveRow
  split
  · rename_i open_
    -- an open swap row holds a free slot
    have slot : row.key = swapSlot job row.txIndex := slotKey_inj.mpr ⟨own, swaps, rfl⟩
    rw [slot] at present
    have free : Free state row.txIndex := intact.free fun other read confirmed => by
      rw [present] at read
      cases read
      rw [confirmed] at open_
      rcases open_ with open_ | open_ <;> cases open_
    obtain ⟨record, recorded⟩ := intact.planned row.txIndex row present
    have failed : ∀ (middle : JobState) (block : Option Nat) (error : Option ErrorCode),
        Intact R job chain middle → Free middle row.txIndex → middle.swapPlan.get? row.txIndex = some record →
        middle.journal.get? (swapSlot job row.txIndex) = some row →
        Intact R job chain { middle with
          journal := reconcileJobTransaction middle.journal row.jobId row.stepIndex row.txIndex .failed block error } := by
      intro middle block error kept stillFree planned at_
      refine kept.opened stillFree reconcile_only ⟨record, planned⟩ fun other read => ?_
      have after := @reconcileJobTransaction_get? middle.journal row.jobId row.stepIndex row.txIndex .failed block error
      rw [show slotKey row.jobId row.stepIndex row.txIndex = swapSlot job row.txIndex from slot, at_] at after
      rw [after] at read
      cases read
      exact fun impossible => nomatch impossible
    split
    · exact ⟨failed state none (some .txAbsent) intact free recorded present,
        rfl, rfl, rfl, fun _ member => member, fun _ member => Or.inl member⟩
    · rename_i hash found
      have hashed : row.txHash = some hash := by
        unfold minedHash at found
        exact (Option.filter_eq_some_iff.mp found).1
      have same : SwapsSame job state (land job chain row.stepIndex hash state) := (SwapsSame.refl state).land row.stepIndex hash
      have kept := intact.same same
      have stillFree := free.same same
      have planned : (land job chain row.stepIndex hash state).swapPlan.get? row.txIndex = some record := by
        rw [same.plan]
        exact recorded
      have at_ := (same.rows row.txIndex).trans present
      dsimp only
      split
      · rename_i succeeded
        have after := @reconcileJobTransaction_get? (land job chain row.stepIndex hash state).journal row.jobId row.stepIndex
          row.txIndex .confirmed (some (chain.receiptOf hash).blockNumber) none
        rw [show slotKey row.jobId row.stepIndex row.txIndex = swapSlot job row.txIndex from slot, at_] at after
        obtain ⟨settled, index, final⟩ := kept.settles stillFree reconcile_only after rfl ⟨hash, hashed, succeeded⟩ planned (reflexive _)
        rw [← swaps] at settled
        rw [settled]
        refine ⟨final, same.plan, same.audits, same.tax, fun swap member => ?_, fun swap member => ?_⟩
        · exact List.mem_cons_of_mem _ (by rw [same.settled]; exact member)
        · rcases List.mem_cons.mp member with rfl | old
          · exact Or.inr recorded
          · rw [same.settled] at old
            exact Or.inl old
      · exact ⟨failed _ _ _ kept stillFree planned at_, same.plan, same.audits, same.tax,
          fun swap member => by dsimp only; rw [same.settled]; exact member,
          fun swap member => Or.inl (by dsimp only at member; rw [same.settled] at member; exact member)⟩
  · exact ⟨intact, (@SwapsSame.refl job state).resolved⟩

theorem resolveSlots_intact (reflexive : ∀ record, R record record) (landed : Hash → Bool) (intact : Intact R job chain start) :
    Intact R job chain (resolveSlots job chain landed start) ∧ Resolved start (resolveSlots job chain landed start) := by
  refine resolveSlots_keeps (I := fun state => Intact R job chain state ∧ Resolved start state)
    ⟨intact, (@SwapsSame.refl job start).resolved⟩ fun middle row member present before => ?_
  have own : row.jobId = job.id := by simpa using (List.mem_filter.mp member).2
  obtain ⟨kept, resolved⟩ := resolveRow_intact reflexive landed own present before.1
  exact ⟨kept, before.2.trans resolved⟩

end

end LpTerminal.SettledSwaps
