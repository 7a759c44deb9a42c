import LpTerminal.Recovery.LiveReplay

/-!
The rest of the live run: the totals are split and minted, and the job is committed by what the wallet spent. Recovery
commits a confirmed mint by its receipt.
-/

namespace LpTerminal.LiveCommit

open Capital Durable Fallible FeeTax FromWallet LiveSwaps Rebalance Receipts SettledSwaps Store SwapJob SwapLegs SwapReplay WalletRun WalletSlots

/-- What the outside world answers from the last swap to the mint. -/
structure MintReply where
  risk : Except ErrorCode Unit
  valuation : Except ErrorCode CapitalValuation
  grants0 : Except ErrorCode (List Send)
  grants1 : Except ErrorCode (List Send)
  mint : Except ErrorCode Send

structure CommitReply where
  balances : Except ErrorCode Unit
  drift : Address → ℤ
  minted : Except ErrorCode Unit
  revokes0 : Except ErrorCode (List Send)
  revokes1 : Except ErrorCode (List Send)
  approvals : Except ErrorCode (List Send)
  stakes : Except ErrorCode (List Send)
  later : Address → ℤ
  otherAllocations : Address → ℤ

structure SentMint where
  capital : CapitalHarvestPlan
  before : Address → ℤ
  receipt : Receipt

section
variable (job : RebalanceJob) (chain : ChainFacts job.owner) (context : PrecheckContext)

def mintStep : Nat := 8

def mintLive (totals : CycleTotals) (answer : MintReply) : Durable ErrorCode JobState SentMint := do
  reply answer.risk
  let valuation ← reply answer.valuation
  let capital ← reply (planCapitalHarvest totals.lp0 totals.lp1 valuation)
  write fun state => { state with capital := some capital }
  let grants0 ← reply answer.grants0
  sendAllowances job.toJob chain 6 0 grants0
  let grants1 ← reply answer.grants1
  sendAllowances job.toJob chain 7 0 grants1
  let mint ← reply answer.mint
  let state ← read
  let receipt ← trackedSend job.toJob chain mintStep 0 mint
  return { capital, before := state.wallet, receipt }

def livePaid (sent : SentMint) (wallet : Address → ℤ) : Except ErrorCode (ℤ × ℤ) :=
  if job.univ4 then do
    demand ((receiptV4MintedTokenId sent.receipt job.positionManager job.owner).any (· ≠ 0) = true) .mintTokenId
    let spent (token : Address) : ℤ := spentByWallet (sent.before token) (wallet token) sent.receipt token
    return (spent job.pair.token0, spent job.pair.token1)
  else do
    let flows := receiptLiquidityFlows sent.receipt job.positionManager 0
    demand (flows.mintedTokenId.any (· ≠ 0) = true) .mintTokenId
    return (flows.minted0, flows.minted1)

def liveCommit (totals : CycleTotals) (capital : CapitalHarvestPlan) (minted0 minted1 : ℤ) : RebalanceCommit :=
  let principalCarry0 := capital.deploy0 - minted0
  let principalCarry1 := capital.deploy1 - minted1
  let heldFee0 := (context.priorHeld job.pair.token0).getD 0 + totals.held0
  let heldFee1 := (context.priorHeld job.pair.token1).getD 0 + totals.held1
  let heldProfit0 := context.profit job.pair.token0 + capital.profit0
  let heldProfit1 := context.profit job.pair.token1 + capital.profit1
  { allocation0 := principalCarry0 + heldFee0 + heldProfit0
    allocation1 := principalCarry1 + heldFee1 + heldProfit1
    principalCarry0, principalCarry1, heldFee0, heldFee1, heldProfit0, heldProfit1 }

def Covered (commit : RebalanceCommit) (wallet otherAllocations : Address → ℤ) : Prop :=
  WalletCovers (otherAllocations job.pair.token0) (wallet job.pair.token0) commit.allocation0 ∧
    WalletCovers (otherAllocations job.pair.token1) (wallet job.pair.token1) commit.allocation1

instance {commit : RebalanceCommit} {wallet otherAllocations : Address → ℤ} : Decidable (Covered job commit wallet otherAllocations) :=
  inferInstanceAs (Decidable (_ ∧ _))

def Parts (commit : RebalanceCommit) : Prop :=
  0 ≤ commit.principalCarry0 ∧ 0 ≤ commit.principalCarry1 ∧ 0 ≤ commit.heldFee0 ∧ 0 ≤ commit.heldFee1 ∧
    0 ≤ commit.heldProfit0 ∧ 0 ≤ commit.heldProfit1

instance {commit : RebalanceCommit} : Decidable (Parts commit) := inferInstanceAs (Decidable (_ ∧ _))

def commitLive (totals : CycleTotals) (sent : SentMint) (answer : CommitReply) : Durable ErrorCode JobState RebalanceCommit := do
  reply answer.balances
  driftWallet answer.drift
  let after ← read
  let (minted0, minted1) ← reply (livePaid job sent after.wallet)
  reply (demand (0 ≤ minted0 ∧ 0 ≤ minted1 ∧ minted0 ≤ sent.capital.deploy0 ∧ minted1 ≤ sent.capital.deploy1) .unsupportedToken)
  reply answer.minted
  let revokes0 ← reply answer.revokes0
  sendAllowances job.toJob chain 9 0 revokes0
  let revokes1 ← reply answer.revokes1
  sendAllowances job.toJob chain 10 0 revokes1
  allowancesAt job.toJob chain 15 answer.approvals
  allowancesAt job.toJob chain 16 answer.stakes
  driftWallet answer.later
  let final ← read
  let commit := liveCommit job context totals sent.capital minted0 minted1
  reply (demand (Parts commit) .allocationMismatch)
  reply (demand (Covered job commit final.wallet answer.otherAllocations) .allocationMismatch)
  return commit

/-- `runJob` from the tax to the commit. -/
def runJob (market : Market) (answer : LiveReply) (mint : MintReply) (commit : CommitReply) : Durable ErrorCode JobState RebalanceCommit := do
  let totals ← liveCycle market job chain context answer
  let sent ← mintLive job chain totals mint
  commitLive job chain context totals sent commit

end

/-- Every transaction mined is of a row, and these slots have none. -/
structure Vacant (job : Job) (free : Nat → Nat → Prop) (state : JobState) : Prop where
  logged : ∀ entry ∈ state.mined, ∃ row ∈ state.journal.rows, row.txHash = some entry.2
  empty : ∀ stepIndex txIndex, free stepIndex txIndex → state.journal.get? (slotKey job.id stepIndex txIndex) = none

structure FreshJob (job : Job) extends FreshState job where
  vacant : Vacant job (fun stepIndex _ => 3 ≤ stepIndex ∧ stepIndex ≤ mintStep) toJobState

def Unsent (approvalTx txIndex : Nat) (stepIndex slot : Nat) : Prop :=
  (stepIndex = 4 ∧ approvalTx ≤ slot) ∨ (stepIndex = swapStep ∧ txIndex ≤ slot) ∨ (6 ≤ stepIndex ∧ stepIndex ≤ mintStep)

section
variable {job : Job} {chain : ChainFacts job.owner} {free later : Nat → Nat → Prop} {state : JobState}

theorem Vacant.less (vacant : Vacant job free state) (fewer : ∀ stepIndex txIndex, later stepIndex txIndex → free stepIndex txIndex) :
    Vacant job later state :=
  ⟨vacant.logged, fun stepIndex txIndex unsent => vacant.empty stepIndex txIndex (fewer stepIndex txIndex unsent)⟩

variable {stepIndex txIndex : Nat}

theorem Vacant.marked (vacant : Vacant job free state)
    (fewer : ∀ step index, later step index → free step index ∧ ¬ (step = stepIndex ∧ index = txIndex)) {hash : Option Hash}
    (kept : ∀ row, state.journal.get? (slotKey job.id stepIndex txIndex) = some row → hash.or row.txHash = row.txHash)
    {send : Send} {transaction : TransactionState} {error : Option ErrorCode} {journal : Journal}
    (marked : markTransaction state.journal (sendMark job stepIndex txIndex send transaction hash error) = .ok journal) :
    Vacant job later { state with journal } := by
  refine ⟨fun entry member => ?_, fun step index unsent => ?_⟩
  · obtain ⟨row, among, hashed⟩ := vacant.logged entry member
    by_cases own : row.key = slotKey job.id stepIndex txIndex
    · have read := Table.get?_of_mem among
      rw [own] at read
      refine ⟨_, (mem_markTransaction marked).mpr (Or.inl rfl), ?_⟩
      change (TransactionMark.merge _ (state.journal.get? (slotKey job.id stepIndex txIndex))).txHash = _
      rw [read]
      exact (kept row read).trans hashed
    · exact ⟨row, (mem_markTransaction marked).mpr (Or.inr ⟨among, own⟩), hashed⟩
  · obtain ⟨was, apart⟩ := fewer step index unsent
    refine (markTransaction_frame marked fun same => apart ?_).trans (vacant.empty step index was)
    exact (slotKey_inj.mp same).2

theorem Vacant.fresh (vacant : Vacant job free state) (unsent : free stepIndex txIndex) {hash : Hash} {send : Send}
    {transaction : TransactionState} {error : Option ErrorCode} {journal : Journal}
    (marked : markTransaction state.journal (sendMark job stepIndex txIndex send transaction (some hash) error) = .ok journal) :
    (∃ row, journal.get? (slotKey job.id stepIndex txIndex) = some row ∧ row.txHash = some hash) ∧ hash ∉ state.mined.map Prod.snd := by
  have placed := markTransaction_get? marked
  have empty := vacant.empty stepIndex txIndex unsent
  change journal.get? (slotKey job.id stepIndex txIndex) = some (TransactionMark.merge _ (state.journal.get? (slotKey job.id stepIndex txIndex))) at placed
  rw [empty] at placed
  refine ⟨⟨_, placed, rfl⟩, fun mined => ?_⟩
  obtain ⟨entry, member, rfl⟩ := List.mem_map.mp mined
  obtain ⟨row, among, hashed⟩ := vacant.logged entry member
  have elsewhere : row.key ≠ slotKey job.id stepIndex txIndex := by
    intro own
    have read := Table.get?_of_mem among
    rw [own, empty] at read
    cases read
  have old : row ∈ journal.rows := (mem_markTransaction marked).mpr (Or.inr ⟨among, elsewhere⟩)
  have same := journal.uniqueHash row old _ (Table.get?_mem placed) (by rw [hashed]; rfl) hashed
  exact elsewhere (by rw [same]; rfl)

/-- A send that is confirmed in a slot nothing was sent in: the wallet felt it once. -/
structure SentRow (job : Job) (chain : ChainFacts job.owner) (stepIndex txIndex : Nat) (start : JobState) (receipt : Receipt)
    (state : JobState) : Prop where
  succeeded : receipt.status = .success
  row : ∃ row, state.journal.get? (slotKey job.id stepIndex txIndex) = some row ∧ row.state = .confirmed ∧
    row.txHash = some receipt.transactionHash
  shown : receipt = chain.receiptOf receipt.transactionHash
  wallet : state.wallet = fun token => start.wallet token + chain.felt receipt.transactionHash token

theorem trackedSend_vacant (later : Nat → Nat → Prop) {start : JobState} (vacant : Vacant job free start) (unsent : free stepIndex txIndex)
    (fewer : ∀ step index, later step index → free step index ∧ ¬ (step = stepIndex ∧ index = txIndex)) (send : Send) :
    Triple (· = start) (trackedSend job chain stepIndex txIndex send)
      (fun receipt state => Vacant job later state ∧ SentRow job chain stepIndex txIndex start receipt state)
      (Vacant job later) := by
  have first : ∀ transaction hash error journal, markTransaction start.journal (sendMark job stepIndex txIndex send transaction hash error) = .ok journal →
      Vacant job later { start with journal } := by
    intro transaction hash error journal marked
    apply vacant.marked fewer _ marked
    intro row read
    rw [vacant.empty stepIndex txIndex unsent] at read
    cases read
  have still := vacant.less fun step index unsent => (fewer step index unsent).1
  rintro state rfl
  unfold trackedSend
  cases send.outcome with
  | refused error => exact still
  | unsent hash error =>
    rw [bind_run, note_run]
    cases marked : markTransaction state.journal (sendMark job stepIndex txIndex send .sending hash none) with
    | error e => exact still
    | ok journal => exact first _ _ _ journal marked
  | unseen hash error =>
    rw [bind_run, note_run]
    cases marked : markTransaction state.journal (sendMark job stepIndex txIndex send .sent (some hash) none) with
    | error e => exact still
    | ok journal => exact first _ _ _ journal marked
  | mined hash valuation =>
    rw [bind_run, note_run]
    cases marked : markTransaction state.journal (sendMark job stepIndex txIndex send .sent (some hash) none) with
    | error e => exact still
    | ok journal =>
      obtain ⟨⟨row, placed, hashed⟩, new⟩ := vacant.fresh unsent marked
      have landing : land job chain stepIndex hash { state with journal } =
          { state with journal, wallet := fun token => state.wallet token + chain.felt hash token, mined := (stepIndex, hash) :: state.mined } :=
        if_neg new
      have landed : Vacant job later (land job chain stepIndex hash { state with journal }) := by
        obtain ⟨logged, empty⟩ := first _ _ _ journal marked
        rw [landing]
        refine ⟨fun entry member => ?_, empty⟩
        rcases List.mem_cons.mp member with rfl | old
        · exact ⟨row, Table.get?_mem placed, hashed⟩
        · exact logged entry old
      -- the later marks find the hash they bring
      have again : ∀ transaction error after,
          markTransaction (land job chain stepIndex hash { state with journal }).journal
            (sendMark job stepIndex txIndex send transaction (some hash) error) = .ok after →
          Vacant job later { land job chain stepIndex hash { state with journal } with journal := after } := by
        intro transaction error after remarked
        apply landed.marked _ _ remarked
        · intro step index open_
          exact ⟨open_, (fewer step index open_).2⟩
        · intro found read
          rw [land_journal, placed] at read
          cases read
          rw [hashed]
          rfl
      dsimp only
      rw [run_write_bind]
      by_cases succeeded : (chain.receiptOf hash).status = .success
      · rw [if_pos succeeded, bind_run, note_run]
        cases confirmed : markTransaction (land job chain stepIndex hash { state with journal }).journal
            (sendMark job stepIndex txIndex send .confirmed (some hash) none) with
        | error e => exact landed
        | ok after =>
          have kept := again _ _ after confirmed
          obtain ⟨last, read, isConfirmed, named⟩ : ∃ last, after.get? (slotKey job.id stepIndex txIndex) = some last ∧
              last.state = .confirmed ∧ last.txHash = some hash := by
            refine ⟨_, markTransaction_get? confirmed, ?_, ?_⟩
            · cases (land job chain stepIndex hash { state with journal }).journal.get? _ <;> rfl
            · cases (land job chain stepIndex hash { state with journal }).journal.get? _ <;> rfl
          have settled : Vacant job later (settle job stepIndex txIndex { land job chain stepIndex hash { state with journal } with journal := after }) := by
            rw [settle_eq]
            exact ⟨kept.logged, kept.empty⟩
          dsimp only
          rw [run_write_bind]
          cases valuation with
          | error e => exact settled
          | ok priced =>
            refine ⟨settled, succeeded, ⟨last, ?_, isConfirmed, ?_⟩, ?_, ?_⟩
            · rw [settle_journal]
              exact read
            · rw [chain.named]
              exact named
            · rw [chain.named]
            · rw [chain.named, settle_eq, landing]
      · rw [if_neg succeeded, bind_run, note_run]
        cases failed : markTransaction (land job chain stepIndex hash { state with journal }).journal
            (sendMark job stepIndex txIndex send .failed (some hash) (some .txReverted)) with
        | error e => exact landed
        | ok after => exact again _ _ after failed

theorem sendAllowances_vacant {sends : List Send} (vacant : Vacant job free state)
    (unsent : ∀ index, txIndex ≤ index → free stepIndex index)
    (fewer : ∀ step index, later step index → free step index ∧ (step = stepIndex → txIndex + sends.length ≤ index)) :
    Triple (· = state) (sendAllowances job chain stepIndex txIndex sends) (fun _ => Vacant job later) fun _ => True := by
  induction sends generalizing free state txIndex with
  | nil =>
    apply triple_pure
    rintro _ rfl
    exact vacant.less fun step index open_ => (fewer step index open_).1
  | cons send rest ih =>
    unfold sendAllowances
    refine triple_bind (triple_weaken (trackedSend_vacant (fun step index => free step index ∧ (step = stepIndex → txIndex + 1 ≤ index))
      vacant (unsent txIndex (Nat.le_refl _)) ?_ send) (fun _ here => here) (fun _ _ sent => sent) fun _ _ => trivial) fun receipt => ?_
    · rintro step index ⟨open_, above⟩
      refine ⟨open_, ?_⟩
      rintro ⟨rfl, rfl⟩
      have beyond := above rfl
      omega
    · apply triple_each
      rintro middle ⟨sent, _⟩
      apply ih sent
      · intro index above
        exact ⟨unsent index (Nat.le_of_succ_le above), fun _ => above⟩
      · intro step index open_
        obtain ⟨was, beyond⟩ := fewer step index open_
        rw [List.length_cons] at beyond
        refine ⟨⟨was, fun own => ?_⟩, fun own => ?_⟩
        · have far := beyond own
          omega
        · have far := beyond own
          omega

theorem Vacant.aside {other : JobState} (vacant : Vacant job free state) (journal : other.journal = state.journal)
    (mined : other.mined = state.mined) : Vacant job free other := by
  refine ⟨?_, ?_⟩
  · rw [journal, mined]
    exact vacant.logged
  · rw [journal]
    exact vacant.empty

theorem driftWallet_vacant (drift : Address → ℤ) : Keeps (Vacant job free) (driftWallet drift) :=
  keeps_write fun _ vacant => vacant.aside rfl rfl

theorem refreshSlot_vacant (txIndex : Nat) (prepared : PreparedSwap) : Keeps (Vacant job free) (refreshSlot txIndex prepared) := by
  apply keeps_write
  intro state vacant
  split
  · exact vacant.aside rfl rfl
  · exact vacant

end

section
variable {market : Market} {job : RebalanceJob} {chain : ChainFacts job.owner} {context : PrecheckContext}

theorem Keeps.returns {α : Type} {I : JobState → Prop} {m : Durable ErrorCode JobState α} (keeps : Keeps I m) :
    Triple I m (fun _ => I) fun _ => True :=
  triple_weaken keeps (fun _ here => here) (fun _ _ here => here) fun _ _ => trivial

theorem swapAllowances_vacant (approvalTx txIndex : Nat) (sends : List Send) :
    Triple (Vacant job.toJob (Unsent approvalTx txIndex)) (sendAllowances job.toJob chain 4 approvalTx sends)
      (fun _ => Vacant job.toJob (Unsent (approvalTx + sends.length) txIndex)) fun _ => True := by
  apply triple_each
  intro state vacant
  apply sendAllowances_vacant vacant
  · intro index above
    exact Or.inl ⟨rfl, above⟩
  · intro step index unsent
    rcases unsent with ⟨rfl, above⟩ | ⟨rfl, above⟩ | ⟨beyond, within⟩
    · exact ⟨Or.inl ⟨rfl, (Nat.le_add_right _ _).trans above⟩, fun _ => above⟩
    · exact ⟨Or.inr (Or.inl ⟨rfl, above⟩), fun impossible => absurd impossible (by decide)⟩
    · exact ⟨Or.inr (Or.inr ⟨beyond, within⟩), fun own => absurd own (by omega)⟩

theorem sendSwap_vacant (approvalTx txIndex : Nat) (send : Send) :
    Triple (Vacant job.toJob (Unsent approvalTx txIndex)) (trackedSend job.toJob chain swapStep txIndex send)
      (fun _ => Vacant job.toJob (Unsent approvalTx (txIndex + 1))) fun _ => True := by
  apply triple_each
  intro state vacant
  refine triple_weaken (trackedSend_vacant (Unsent approvalTx (txIndex + 1)) vacant (Or.inr (Or.inl ⟨rfl, Nat.le_refl _⟩)) ?_ send)
    (fun _ here => here) (fun _ _ sent => sent.1) fun _ _ => trivial
  intro step index unsent
  rcases unsent with ⟨rfl, above⟩ | ⟨rfl, above⟩ | ⟨beyond, within⟩
  · exact ⟨Or.inl ⟨rfl, above⟩, fun own => absurd own.1 (by decide)⟩
  · exact ⟨Or.inr (Or.inl ⟨rfl, Nat.le_of_succ_le above⟩), fun own => by omega⟩
  · refine ⟨Or.inr (Or.inr ⟨beyond, within⟩), fun own => ?_⟩
    have fifth : step = 5 := own.1
    omega

theorem liveSwap_vacant (loop : LoopState) (txIndex : Nat) (intent : SwapIntent) (answer : SwapReply) :
    Triple (Vacant job.toJob (Unsent loop.approvalTx txIndex)) (liveSwap job chain loop txIndex intent answer)
      (fun after => Vacant job.toJob (Unsent after.approvalTx (txIndex + 1))) fun _ => True := by
  unfold liveSwap
  apply triple_bind (Keeps.returns (keeps_reply answer.approvals))
  intro approvals
  apply triple_bind (swapAllowances_vacant loop.approvalTx txIndex approvals)
  intro _
  apply triple_bind (Keeps.returns (keeps_reply answer.prepared))
  intro prepared
  apply triple_bind (Keeps.returns (refreshSlot_vacant txIndex prepared))
  intro _
  apply triple_bind (Keeps.returns keeps_read)
  intro before
  apply triple_bind (sendSwap_vacant (loop.approvalTx + approvals.length) txIndex answer.send)
  intro receipt
  apply triple_bind (Keeps.returns (driftWallet_vacant answer.drift))
  intro _
  apply triple_bind (Keeps.returns keeps_read)
  intro after
  apply triple_bind (Keeps.returns (keeps_reply _))
  intro execution
  apply triple_bind (Keeps.returns (keeps_reply answer.revokes))
  intro revokes
  apply triple_bind (swapAllowances_vacant (loop.approvalTx + approvals.length) (txIndex + 1) revokes)
  intro _
  apply triple_bind (Q := fun _ => Vacant job.toJob (Unsent (loop.approvalTx + approvals.length + revokes.length) (txIndex + 1)))
  · apply triple_write
    intro state vacant
    exact vacant.aside rfl rfl
  · intro _
    apply triple_pure
    intro state vacant
    exact vacant

theorem liveSwaps_vacant (loop : LoopState) (txIndex : Nat) (intents : List SwapIntent) (answers : List SwapReply) :
    Triple (Vacant job.toJob (Unsent loop.approvalTx txIndex)) (liveSwaps job chain loop txIndex intents answers)
      (fun _ => Vacant job.toJob fun step _ => 6 ≤ step ∧ step ≤ mintStep) fun _ => True := by
  induction intents generalizing loop txIndex answers with
  | nil =>
    apply triple_pure
    intro state vacant
    exact vacant.less fun _ _ cycle => Or.inr (Or.inr cycle)
  | cons intent rest ih =>
    cases answers with
    | nil =>
      apply triple_fail
      intro _ _
      trivial
    | cons answer later =>
      apply triple_bind (liveSwap_vacant loop txIndex intent answer)
      intro after
      exact ih after (txIndex + 1) later

theorem burnLive_vacant (burn : Option Send) :
    Triple (Vacant job.toJob fun step _ => 3 ≤ step ∧ step ≤ mintStep) (burnLive job chain burn)
      (fun _ => Vacant job.toJob (Unsent 0 0)) fun _ => True := by
  have fewer : ∀ step index, Unsent 0 0 step index → (3 ≤ step ∧ step ≤ mintStep) ∧ ¬ (step = 3 ∧ index = 0) := by
    intro step index unsent
    unfold Unsent swapStep mintStep at *
    omega
  cases burn with
  | none =>
    apply triple_pure
    intro state vacant
    exact vacant.less fun step index unsent => (fewer step index unsent).1
  | some send =>
    intro state vacant
    have sends : Triple (· = state) (trackedSend job.toJob chain 3 0 send)
        (fun receipt final => Vacant job.toJob (Unsent 0 0) final ∧ SentRow job.toJob chain 3 0 state receipt final) (Vacant job.toJob (Unsent 0 0)) :=
      trackedSend_vacant _ vacant (by decide) fewer send
    have after := sends state rfl
    change Vacant job.toJob (Unsent 0 0) ((trackedSend job.toJob chain 3 0 send).run state).2
    rcases ran : (trackedSend job.toJob chain 3 0 send).run state with ⟨outcome, final⟩
    rw [ran] at after
    cases outcome with
    | ok receipt => exact after.1
    | error e => exact after

theorem liveCycle_vacant (answer : LiveReply) :
    Triple (Vacant job.toJob fun step _ => 3 ≤ step ∧ step ≤ mintStep) (liveCycle market job chain context answer)
      (fun _ => Vacant job.toJob fun step _ => 6 ≤ step ∧ step ≤ mintStep) fun _ => True := by
  unfold liveCycle
  apply triple_bind (Keeps.returns (keeps_reply _))
  intro tax
  apply triple_bind (Q := fun _ => Vacant job.toJob fun step _ => 3 ≤ step ∧ step ≤ mintStep)
  · apply triple_write
    intro state vacant
    exact vacant.aside rfl rfl
  intro _
  apply triple_bind (burnLive_vacant answer.burn)
  intro _
  apply triple_bind (Keeps.returns (keeps_reply answer.units))
  intro units
  apply triple_bind (Keeps.returns (keeps_reply _))
  intro cycle
  apply triple_bind (Q := fun _ => Vacant job.toJob (Unsent 0 0))
  · apply triple_write
    intro state vacant
    exact vacant.aside rfl rfl
  intro _
  apply triple_bind (Keeps.returns (keeps_reply answer.limits))
  intro _
  apply triple_bind (liveSwaps_vacant ⟨cycle.totals + rewardTotals job tax.rewardAfterTax, 0, []⟩ 0 (tax.swaps ++ cycle.swaps) answer.swaps)
  intro loop
  apply triple_pure
  intro state vacant
  exact vacant

end

structure Minted (job : Job) (hash : Hash) (state : JobState) : Prop where
  row : ∃ row, state.journal.get? (slotKey job.id mintStep 0) = some row ∧ row.state = .confirmed ∧ row.txHash = some hash
  only : ∀ txIndex, txIndex ≠ 0 → state.journal.get? (slotKey job.id mintStep txIndex) = none

/-- The same chain facts of a job: the rows of its swaps and of its mint, and what it keeps of them. -/
structure FactsSame (job : Job) (start state : JobState) : Prop where
  swaps : SwapsSame job start state
  mint : ∀ txIndex, state.journal.get? (slotKey job.id mintStep txIndex) = start.journal.get? (slotKey job.id mintStep txIndex)

section
variable {job : Job} {chain : ChainFacts job.owner} {start state : JobState} {hash : Hash}

theorem FactsSame.refl (state : JobState) : FactsSame job state state := ⟨SwapsSame.refl state, fun _ => rfl⟩

theorem FactsSame.trans {middle : JobState} (first : FactsSame job start middle) (second : FactsSame job middle state) :
    FactsSame job start state :=
  ⟨first.swaps.trans second.swaps, fun txIndex => (second.mint txIndex).trans (first.mint txIndex)⟩

theorem Minted.same (minted : Minted job hash start) (same : FactsSame job start state) : Minted job hash state := by
  refine ⟨?_, fun txIndex other => ?_⟩
  · rw [same.mint]
    exact minted.row
  · rw [same.mint]
    exact minted.only txIndex other

theorem Minted.confirmedAt (minted : Minted job hash state) : SwapJob.confirmedAt job chain state mintStep = some (chain.receiptOf hash) := by
  obtain ⟨row, read, confirmed, hashed⟩ := minted.row
  have key := Table.get?_key read
  obtain ⟨own, step, _⟩ := slotKey_inj.mp key
  have member : row ∈ stepTransactions state.journal job.id mintStep := by
    unfold stepTransactions jobTransactions
    simp only [List.mem_filter, decide_eq_true_eq]
    exact ⟨⟨Table.get?_mem read, own⟩, step⟩
  have alone : ∀ other ∈ stepTransactions state.journal job.id mintStep, other = row := by
    intro other among
    unfold stepTransactions jobTransactions at among
    simp only [List.mem_filter, decide_eq_true_eq] at among
    obtain ⟨⟨listed, sameJob⟩, sameStep⟩ := among
    have place : other.key = slotKey job.id mintStep other.txIndex := slotKey_inj.mpr ⟨sameJob, sameStep, rfl⟩
    have found := Table.get?_of_mem listed
    by_cases first : other.txIndex = 0
    · rw [place, first, read] at found
      exact (Option.some.inj found).symm
    · rw [place, minted.only _ first] at found
      cases found
  unfold SwapJob.confirmedAt
  cases search : (stepTransactions state.journal job.id mintStep).find? fun row => row.state = .confirmed && row.txHash.isSome with
  | none =>
    have unmatched := List.find?_eq_none.mp search row member
    simp [confirmed, hashed] at unmatched
  | some found =>
    rw [alone found (List.mem_of_find?_eq_some search)]
    simp [hashed]

theorem trackedSend_facts {stepIndex : Nat} (swap : stepIndex ≠ swapStep) (mint : stepIndex ≠ mintStep) (index : Nat) (send : Send) :
    Keeps (FactsSame job start) (trackedSend job chain stepIndex index send) := by
  have rows : Keeps (fun state => ∀ txIndex, state.journal.get? (slotKey job.id mintStep txIndex) =
      start.journal.get? (slotKey job.id mintStep txIndex)) (trackedSend job chain stepIndex index send) := by
    apply trackedSend_keeps
    · intro transaction hash error
      apply note_keeps
      intro state journal same marked txIndex
      refine (markTransaction_frame marked fun own => mint ?_).trans (same txIndex)
      exact (slotKey_inj.mp own).2.1.symm
    · intro hash state same
      rw [land_journal]
      exact same
    · intro state same
      rw [settle_journal]
      exact same
  refine triple_weaken (triple_both (trackedSend_same swap index send) rows) (fun state same => ⟨same.swaps, same.mint⟩) ?_ ?_
  · rintro _ state ⟨swaps, mint⟩
    exact ⟨swaps, mint⟩
  · rintro state ⟨swaps, mint⟩
    exact ⟨swaps, mint⟩

theorem sendAllowances_facts {stepIndex : Nat} (swap : stepIndex ≠ swapStep) (mint : stepIndex ≠ mintStep) (index : Nat) (sends : List Send) :
    Keeps (FactsSame job start) (sendAllowances job chain stepIndex index sends) := by
  induction sends generalizing index with
  | nil => exact keeps_pure ()
  | cons send rest ih => exact keeps_bind (trackedSend_facts swap mint index send) fun _ => ih (index + 1)

theorem allowancesAt_facts {stepIndex : Nat} (swap : stepIndex ≠ swapStep) (mint : stepIndex ≠ mintStep) (sends : Except ErrorCode (List Send)) :
    Keeps (FactsSame job start) (allowancesAt job chain stepIndex sends) :=
  keeps_bind (keeps_reply sends) fun _ => keeps_bind keeps_read fun _ => sendAllowances_facts swap mint _ _

theorem driftWallet_facts (drift : Address → ℤ) : Keeps (FactsSame job start) (driftWallet drift) :=
  keeps_write fun _ ⟨⟨rows, plan, audits, tax, capital, settled⟩, mint⟩ => ⟨⟨rows, plan, audits, tax, capital, settled⟩, mint⟩

end

def paidInto {owner : Address} (chain : ChainFacts owner) (hash : Hash) (token : Address) : ℤ := -chain.moved hash token

/-- A confirmed mint of the totals: the wallet felt it, and nothing of the swaps changed but for the capital that is written. -/
structure MintSent (job : RebalanceJob) (chain : ChainFacts job.owner) (totals : CycleTotals) (start : JobState) (sent : SentMint)
    (state : JobState) : Prop where
  minted : Minted job.toJob sent.receipt.transactionHash state
  shown : sent.receipt = chain.receiptOf sent.receipt.transactionHash
  wallet : state.wallet = fun token => sent.before token + chain.felt sent.receipt.transactionHash token
  swaps : SwapsSame job.toJob { start with capital := some sent.capital } state
  splits : sent.capital.deploy0 + sent.capital.profit0 = totals.lp0 ∧ sent.capital.deploy1 + sent.capital.profit1 = totals.lp1

/-- What is committed of it on univ4: what was deployed and not paid is carried. -/
structure Committed (job : RebalanceJob) (chain : ChainFacts job.owner) (context : PrecheckContext) (totals : CycleTotals)
    (sent : SentMint) (commit : RebalanceCommit) : Prop where
  tokenId : (receiptV4MintedTokenId sent.receipt job.positionManager job.owner).any (· ≠ 0) = true
  paid : 0 ≤ paidInto chain sent.receipt.transactionHash job.pair.token0 ∧ 0 ≤ paidInto chain sent.receipt.transactionHash job.pair.token1
  counted : commit = liveCommit job context totals sent.capital (paidInto chain sent.receipt.transactionHash job.pair.token0)
    (paidInto chain sent.receipt.transactionHash job.pair.token1)
  parts : Parts commit

section
variable {job : RebalanceJob} {chain : ChainFacts job.owner} {context : PrecheckContext} {totals : CycleTotals} {start : JobState}

theorem mintLive_sent (vacant : Vacant job.toJob (fun step _ => 6 ≤ step ∧ step ≤ mintStep) start) (answer : MintReply) :
    Triple (· = start) (mintLive job chain totals answer) (MintSent job chain totals start) fun _ => True := by
  have stops : ∀ {α : Type} (answer : Except ErrorCode α) e, answer = .error e → True := fun _ _ _ => trivial
  unfold mintLive
  refine triple_reply_at (fun _ _ => ?_) (stops _)
  refine triple_reply_at (fun valuation _ => ?_) (stops _)
  refine triple_reply_at (fun capital planned => ?_) (stops _)
  apply triple_write_at
  refine triple_reply_at (fun grants0 _ => ?_) (stops _)
  have planless : Vacant job.toJob (fun step _ => 6 ≤ step ∧ step ≤ mintStep) { start with capital := some capital } := vacant.aside rfl rfl
  have grant : ∀ (first step : Nat) {middle : JobState} (sends : List Send), step ≠ swapStep → first ≤ step → step + 1 ≤ mintStep →
      SwapsSame job.toJob { start with capital := some capital } middle →
      Vacant job.toJob (fun other _ => first ≤ other ∧ other ≤ mintStep) middle →
      Triple (· = middle) (sendAllowances job.toJob chain step 0 sends)
        (fun _ state => SwapsSame job.toJob { start with capital := some capital } state ∧
          Vacant job.toJob (fun other _ => step + 1 ≤ other ∧ other ≤ mintStep) state) fun _ => True := by
    intro first step middle sends off from_ below same free
    refine triple_weaken (triple_both (sendAllowances_same off 0 sends) (sendAllowances_vacant free ?_ ?_)) ?_ (fun _ _ both => both)
      fun _ _ => trivial
    · intro index _
      exact ⟨from_, Nat.le_of_succ_le below⟩
    · rintro other index ⟨beyond, within⟩
      refine ⟨⟨from_.trans (Nat.le_of_succ_le beyond), within⟩, fun own => ?_⟩
      omega
    · rintro state rfl
      exact ⟨same, rfl⟩
  refine triple_bind (grant 6 6 grants0 (by decide) (by decide) (by decide) (SwapsSame.refl _) planless) fun _ => ?_
  apply triple_each
  rintro granted ⟨same, free⟩
  refine triple_reply_at (fun grants1 _ => ?_) (stops _)
  refine triple_bind (grant 7 7 grants1 (by decide) (by decide) (by decide) same free) fun _ => ?_
  apply triple_each
  rintro ready ⟨same, free⟩
  refine triple_reply_at (fun mint _ => ?_) (stops _)
  apply triple_read_at
  have sends : Triple (· = ready) (trackedSend job.toJob chain mintStep 0 mint)
      (fun receipt state => SwapsSame job.toJob { start with capital := some capital } state ∧
        Vacant job.toJob (fun other index => other = mintStep ∧ index ≠ 0) state ∧ SentRow job.toJob chain mintStep 0 ready receipt state)
      fun _ => True := by
    have off : mintStep ≠ swapStep := by decide
    refine triple_weaken (triple_both (trackedSend_same off 0 mint) (trackedSend_vacant _ free (by decide) ?_ mint)) ?_
      (fun _ _ both => both) fun _ _ => trivial
    · rintro other index ⟨rfl, apart⟩
      exact ⟨by decide, fun own => apart own.2⟩
    · rintro state rfl
      exact ⟨same, rfl⟩
  apply triple_bind sends
  intro receipt
  apply triple_pure
  rintro state ⟨sameThen, freeThen, row⟩
  exact ⟨⟨row.row, fun txIndex apart => freeThen.empty mintStep txIndex ⟨rfl, apart⟩⟩, row.shown, row.wallet, sameThen,
    planCapitalHarvest_splits planned⟩

theorem commitLive_facts (sent : SentMint) (answer : CommitReply) :
    Keeps (FactsSame job.toJob start) (commitLive job chain context totals sent answer) := by
  unfold commitLive
  apply keeps_bind (keeps_reply answer.balances)
  intro _
  apply keeps_bind (driftWallet_facts answer.drift)
  intro _
  apply keeps_bind keeps_read
  intro after
  apply keeps_bind (keeps_reply _)
  intro paid
  apply keeps_bind (keeps_reply _)
  intro _
  apply keeps_bind (keeps_reply answer.minted)
  intro _
  apply keeps_bind (keeps_reply answer.revokes0)
  intro revokes0
  apply keeps_bind (sendAllowances_facts (by decide) (by decide) 0 revokes0)
  intro _
  apply keeps_bind (keeps_reply answer.revokes1)
  intro revokes1
  apply keeps_bind (sendAllowances_facts (by decide) (by decide) 0 revokes1)
  intro _
  apply keeps_bind (allowancesAt_facts (by decide) (by decide) answer.approvals)
  intro _
  apply keeps_bind (allowancesAt_facts (by decide) (by decide) answer.stakes)
  intro _
  apply keeps_bind (driftWallet_facts answer.later)
  intro _
  apply keeps_bind keeps_read
  intro final
  apply keeps_bind (keeps_reply _)
  intro _
  apply keeps_bind (keeps_reply _)
  intro _
  exact keeps_pure _

theorem commitLive_left (sent : SentMint) (answer : CommitReply) (state : JobState) :
    FactsSame job.toJob state (left (commitLive job chain context totals sent answer) state) :=
  left_keeps (commitLive_facts sent answer) (FactsSame.refl state)

theorem commitLive_committed (univ4 : job.univ4 = true) {sent : SentMint} {state : JobState} (minted : MintSent job chain totals start sent state)
    {answer : CommitReply} (calm : answer.drift job.pair.token0 = 0 ∧ answer.drift job.pair.token1 = 0) :
    Triple (· = state) (commitLive job chain context totals sent answer)
      (fun commit _ => Committed job chain context totals sent commit) fun _ => True := by
  have spent : ∀ token, answer.drift token = 0 → spentByWallet (sent.before token) (state.wallet token + answer.drift token) sent.receipt token =
      paidInto chain sent.receipt.transactionHash token := by
    intro token still
    rw [still, add_zero, minted.wallet]
    have felt := spentByWallet_felt chain sent.receipt.transactionHash token (sent.before token)
    rw [← minted.shown] at felt
    exact felt
  have stops : ∀ {α : Type} (answer : Except ErrorCode α) e, answer = .error e → True := fun _ _ _ => trivial
  unfold commitLive
  refine triple_reply_at (fun _ _ => ?_) (stops _)
  apply triple_write_at
  apply triple_read_at
  refine triple_reply_at (fun paid read => ?_) (stops _)
  unfold livePaid at read
  rw [if_pos univ4] at read
  obtain ⟨_, named, read⟩ := bind_ok read
  dsimp only at read
  rw [spent _ calm.1, spent _ calm.2] at read
  cases read
  refine triple_reply_at (fun _ bounded => ?_) (stops _)
  obtain ⟨nonneg0, nonneg1, _⟩ := demand_ok.mp bounded
  -- the revocations and the stake decide only whether the commit is reached
  refine triple_weaken (P := fun _ => True) (E := fun _ => True) ?_ (fun _ _ => trivial) (fun _ _ done => done) fun _ _ => trivial
  apply triple_bind (keeps_true _)
  intro _
  apply triple_bind (keeps_true _)
  intro revokes0
  apply triple_bind (keeps_true _)
  intro _
  apply triple_bind (keeps_true _)
  intro revokes1
  apply triple_bind (keeps_true _)
  intro _
  apply triple_bind (keeps_true _)
  intro _
  apply triple_bind (keeps_true _)
  intro _
  apply triple_bind (keeps_true _)
  intro _
  apply triple_each
  intro final _
  apply triple_read_at
  refine triple_reply_at (fun _ parts => ?_) (stops _)
  refine triple_reply_at (fun _ _ => ?_) (stops _)
  apply triple_pure
  intro _ _
  exact ⟨demand_ok.mp named, ⟨nonneg0, nonneg1⟩, rfl, demand_ok.mp parts⟩

end

section
variable {job : RebalanceJob} {chain : LoggedChain job.owner} {stored : Option FeeTaxContext} {swaps : List SwapIntent} {state : JobState}

theorem replayed_perm (sound : LiveSound job chain.toChainFacts stored swaps state) :
    (replayedSwaps job.toJob state).Perm (state.settled.map (settledSwap job.toJob)) := by
  have each : (state.settled.map SettledSwap.row).filterMap (replayedSwap job.toJob state) = state.settled.map (settledSwap job.toJob) := by
    rw [List.filterMap_map, ← List.filterMap_eq_map]
    apply List.filterMap_congr
    intro swap member
    exact sound.replayed member
  unfold replayedSwaps
  rw [← each]
  exact (confirmedSwaps_perm sound.intact).filterMap _

theorem replayed_total (sound : LiveSound job chain.toChainFacts stored swaps state) (erc20 : ∀ swap ∈ state.settled, ¬ Native swap) :
    ((replayedSwaps job.toJob state).map fun swap => swap.effect job.toJob chain.toChainFacts).sum =
      liveTotal job.toJob chain.toChainFacts state.settled := by
  rw [((replayed_perm sound).map _).sum_eq, List.map_map]
  unfold liveTotal
  congr 1
  apply List.map_congr_left
  intro swap member
  exact erc20_effect (erc20 swap member)

end

section
variable {market : Market} {job : CollectedJob} {chain : LoggedChain job.owner} {context : StoredContext} {state : JobState}
variable {tax : FeeTaxPlan} {cycle : CyclePlan}

theorem taxes_stored (planned : PlansTax market job.toRebalanceJob tax) (taxed : state.feeTax = some tax.context) :
    stakingRewardAfterTax job.toRebalanceJob state = .ok tax.rewardAfterTax ∧
      applyStoredFeeTax job.toRebalanceJob state = .ok (tax.fee0AfterTax, tax.fee1AfterTax) := by
  obtain ⟨quote, plans⟩ := planned
  obtain ⟨⟨nonneg0, within0⟩, ⟨nonneg1, within1⟩, nonneg, within⟩ := planFeeTax_within plans
  obtain ⟨fee0, fee1, reward⟩ := (planFeeTax_quoted plans).2
  unfold stakingRewardAfterTax applyStoredFeeTax
  rw [taxed]
  refine ⟨?_, ?_⟩
  · dsimp only [Option.map_some, Option.getD_some]
    rw [demand_bind ⟨nonneg, within⟩, reward]
    rfl
  · dsimp only
    rw [demand_bind ⟨nonneg0, nonneg1, within0, within1⟩, fee0, fee1]
    rfl

theorem replayedFacts_ok {capital : CapitalHarvestPlan} {facts : ℤ × CycleTotals × ℤ × ℤ × ℤ × ℤ}
    (planned : PlansSwaps market job.toRebalanceJob context.toPrecheckContext tax cycle)
    (sound : LiveSound job.toRebalanceJob chain.toChainFacts (some tax.context) (tax.swaps ++ cycle.swaps) state)
    (accepted : ∀ swap ∈ state.settled, LiveAccepted chain.toChainFacts swap) {deployed : CycleTotals}
    (counted : deployed = fundTotals job.handling (deployableFunds job.toRebalanceJob context.toPrecheckContext tax.fee0AfterTax tax.fee1AfterTax
      tax.rewardAfterTax) + liveTotal job.toJob chain.toChainFacts state.settled)
    (stored : state.capital = some capital)
    (splits : capital.deploy0 + capital.profit0 = deployed.lp0 ∧ capital.deploy1 + capital.profit1 = deployed.lp1) :
    replayedFacts job.toRebalanceJob chain.toChainFacts context.toPrecheckContext state = .ok facts ↔
      (∀ swap ∈ state.settled, ¬ Native swap) ∧
        facts = (tax.rewardAfterTax, deployed, capital.deploy0, capital.deploy1, capital.profit0, capital.profit1) := by
  obtain ⟨reward, fees⟩ := @taxes_stored market job state tax planned.taxed sound.taxed
  have same := (@PlansTax.funds market job context tax planned.taxed).1
  have each : (∀ replay ∈ replayedSwaps job.toJob state, replay.Acceptable chain.toChainFacts) ↔ ∀ swap ∈ state.settled, ¬ Native swap := by
    constructor
    · intro each swap settled
      exact (sound.acceptable_iff settled (accepted swap settled)).mp (each _ (sound.mem_replayed.mpr ⟨swap, settled, rfl⟩))
    · intro erc20 replay member
      obtain ⟨swap, settled, rfl⟩ := sound.mem_replayed.mp member
      exact (sound.acceptable_iff settled (accepted swap settled)).mpr (erc20 swap settled)
  unfold replayedFacts
  rw [reward, fees]
  change (applyExecutedSwaps job.toJob chain.toChainFacts (deployableFunds job.toRebalanceJob context.toPrecheckContext tax.fee0AfterTax
    tax.fee1AfterTax tax.rewardAfterTax) state >>= fun totals => _) = _ ↔ _
  constructor
  · intro replays
    obtain ⟨totals, replayed, rest⟩ := bind_ok replays
    obtain ⟨acceptable, _, total⟩ := (applyExecutedSwaps_ok sound.recorded_rows).mp replayed
    have erc20 := each.mp acceptable
    rw [replayed_total sound erc20, ← counted] at total
    subst total
    rw [stored] at rest
    dsimp only at rest
    rw [demand_bind splits] at rest
    cases rest
    exact ⟨erc20, rfl⟩
  · rintro ⟨erc20, rfl⟩
    have acceptable := each.mpr erc20
    have funded := planned.funded sound acceptable
    rw [← same] at funded
    have replayed : applyExecutedSwaps job.toJob chain.toChainFacts (deployableFunds job.toRebalanceJob context.toPrecheckContext tax.fee0AfterTax
        tax.fee1AfterTax tax.rewardAfterTax) state = .ok deployed := (applyExecutedSwaps_ok sound.recorded_rows).mpr
      ⟨acceptable, funded, by rw [replayed_total sound erc20]; exact counted⟩
    rw [replayed]
    change (do
      demand ((storedCapital state deployed).1 + (storedCapital state deployed).2.2.1 = deployed.lp0 ∧
        (storedCapital state deployed).2.1 + (storedCapital state deployed).2.2.2 = deployed.lp1) _
      pure _) = _
    unfold storedCapital
    rw [stored]
    dsimp only
    rw [demand_bind splits]
    rfl

def recoveredPaid {owner : Address} (chain : ChainFacts owner) (value : Hash → Nat) (hash : Hash) (token : Address) : ℤ :=
  if token = zeroAddress then value hash else paidInto chain hash token

def sweptBack {owner : Address} (pair : Pair) (chain : ChainFacts owner) (value : Hash → Nat) (hash : Hash) : ℤ :=
  if pair.token0 = zeroAddress ∨ pair.token1 = zeroAddress then value hash - paidInto chain hash zeroAddress else 0

theorem paid_agrees {owner : Address} {pair : Pair} {chain : ChainFacts owner} {value : Hash → Nat} {hash : Hash} :
    (recoveredPaid chain value hash pair.token0 = paidInto chain hash pair.token0 ∧
      recoveredPaid chain value hash pair.token1 = paidInto chain hash pair.token1) ↔ sweptBack pair chain value hash = 0 := by
  unfold recoveredPaid sweptBack
  by_cases first : pair.token0 = zeroAddress
  · have second : pair.token1 ≠ zeroAddress := fun native => pair.distinct (first.trans native.symm)
    rw [if_pos first, if_neg second, if_pos (Or.inl first), first]
    constructor
    · rintro ⟨same, _⟩
      omega
    · intro nothing
      exact ⟨by omega, rfl⟩
  · rw [if_neg first]
    by_cases second : pair.token1 = zeroAddress
    · rw [if_pos second, if_pos (Or.inr second), second]
      constructor
      · rintro ⟨_, same⟩
        omega
      · intro nothing
        exact ⟨rfl, by omega⟩
    · rw [if_neg second, if_neg (not_or.mpr ⟨first, second⟩)]
      exact ⟨fun _ => rfl, fun _ => ⟨rfl, rfl⟩⟩

/-- What a v4 mint took of a token. -/
def mintedSide (receipt : Receipt) (owner : Address) (value : Hash → Nat) (token : Address) : ℤ :=
  match receiptV4TokenFlow receipt token owner with
  | none => value receipt.transactionHash
  | some flow => -flow

theorem mintFacts_live (univ4 : job.univ4 = true) (value : Hash → Nat) {hash : Hash}
    (tokenId : (receiptV4MintedTokenId (chain.receiptOf hash) job.positionManager job.owner).any (· ≠ 0) = true)
    (paid : 0 ≤ paidInto chain.toChainFacts hash job.pair.token0 ∧ 0 ≤ paidInto chain.toChainFacts hash job.pair.token1) :
    mintFacts job.toRebalanceJob value (chain.receiptOf hash) =
      .ok (recoveredPaid chain.toChainFacts value hash job.pair.token0, recoveredPaid chain.toChainFacts value hash job.pair.token1) := by
  let side := fun token => mintedSide (chain.receiptOf hash) job.owner value token
  have read : ∀ token, side token = recoveredPaid chain.toChainFacts value hash token := by
    intro token
    unfold side mintedSide receiptV4TokenFlow recoveredPaid
    by_cases native : token = zeroAddress
    · rw [if_pos native, if_pos native, chain.named]
    · rw [if_neg native, if_neg native]
      unfold paidInto
      rw [chain.logged hash token native]
  have nonneg : ∀ token, 0 ≤ paidInto chain.toChainFacts hash token → 0 ≤ recoveredPaid chain.toChainFacts value hash token := by
    intro token paid
    unfold recoveredPaid
    split
    · exact Int.natCast_nonneg _
    · exact paid
  unfold mintFacts
  rw [if_pos univ4, demand_bind tokenId]
  change (demand (0 ≤ side job.pair.token0 ∧ 0 ≤ side job.pair.token1) _ >>= fun _ => pure (side job.pair.token0, side job.pair.token1)) = _
  rw [read, read, demand_bind ⟨nonneg _ paid.1, nonneg _ paid.2⟩]
  rfl

theorem commitFromChainFacts_ok {capital : CapitalHarvestPlan} {deployed : CycleTotals} {rewardAfterTax minted0 minted1 : ℤ}
    {otherAllocations : Address → ℤ} {commit : RebalanceCommit}
    (facts : replayedFacts job.toRebalanceJob chain.toChainFacts context.toPrecheckContext state =
      .ok (rewardAfterTax, deployed, capital.deploy0, capital.deploy1, capital.profit0, capital.profit1))
    (counted : commit = liveCommit job.toRebalanceJob context.toPrecheckContext (deployed + rewardTotals job.toRebalanceJob rewardAfterTax)
      capital minted0 minted1) {recovered : RebalanceCommit} :
    commitFromChainFacts job.toRebalanceJob chain.toChainFacts context.toPrecheckContext state minted0 minted1 otherAllocations = .ok recovered ↔
      recovered = commit ∧ (0 ≤ commit.allocation0 ∧ 0 ≤ commit.allocation1) ∧ Covered job.toRebalanceJob commit state.wallet otherAllocations := by
  let token0 := job.pair.token0
  let token1 := job.pair.token1
  let heldFee0 := context.toPrecheckContext.held token0 + deployed.held0 + heldReward job.toRebalanceJob rewardAfterTax token0
  let heldFee1 := context.toPrecheckContext.held token1 + deployed.held1 + heldReward job.toRebalanceJob rewardAfterTax token1
  let heldProfit0 := context.toPrecheckContext.profit token0 + capital.profit0
  let heldProfit1 := context.toPrecheckContext.profit token1 + capital.profit1
  let built : RebalanceCommit :=
    { allocation0 := capital.deploy0 - minted0 + heldFee0 + heldProfit0
      allocation1 := capital.deploy1 - minted1 + heldFee1 + heldProfit1
      principalCarry0 := capital.deploy0 - minted0, principalCarry1 := capital.deploy1 - minted1
      heldFee0, heldFee1, heldProfit0, heldProfit1 }
  have held : ∀ token fee, (context.priorHeld token).getD 0 + (fee + heldReward job.toRebalanceJob rewardAfterTax token) =
      context.toPrecheckContext.held token + fee + heldReward job.toRebalanceJob rewardAfterTax token := by
    intro token fee
    rw [context.held_eq, add_assoc]
  have same : built = commit := by
    have fee0 : (context.priorHeld job.pair.token0).getD 0 + (deployed + rewardTotals job.toRebalanceJob rewardAfterTax).held0 = heldFee0 :=
      held token0 deployed.held0
    have fee1 : (context.priorHeld job.pair.token1).getD 0 + (deployed + rewardTotals job.toRebalanceJob rewardAfterTax).held1 = heldFee1 :=
      held token1 deployed.held1
    rw [counted]
    unfold liveCommit
    rw [fee0, fee1]
  unfold commitFromChainFacts
  rw [facts]
  change (demand (0 ≤ built.allocation0 ∧ 0 ≤ built.allocation1) ErrorCode.allocationMismatch >>= fun _ =>
    demand (Covered job.toRebalanceJob built state.wallet otherAllocations) ErrorCode.allocationMismatch >>= fun _ => pure built) = _ ↔ _
  rw [same]
  constructor
  · intro commits
    obtain ⟨_, nonneg, commits⟩ := bind_ok commits
    obtain ⟨_, covered, commits⟩ := bind_ok commits
    cases commits
    exact ⟨rfl, demand_ok.mp nonneg, demand_ok.mp covered⟩
  · rintro ⟨rfl, nonneg, covered⟩
    rw [demand_bind nonneg, demand_bind covered]
    rfl

end

section
variable {market : Market} {job : RebalanceJob} {chain : ChainFacts job.owner} {context : PrecheckContext}
variable {answer : LiveReply} {mint : MintReply} {rest : CommitReply}

/-- Nothing from outside moves the wallet between two reads that are compared. -/
structure CalmRun (job : RebalanceJob) (answer : LiveReply) (rest : CommitReply) : Prop where
  swaps : ∀ reply ∈ answer.swaps, ∀ token, reply.drift token = 0
  mint : rest.drift job.pair.token0 = 0 ∧ rest.drift job.pair.token1 = 0

structure LiveMinted (market : Market) (job : RebalanceJob) (chain : ChainFacts job.owner) (context : PrecheckContext) (answer : LiveReply)
    (tax : FeeTaxPlan) (cycle : CyclePlan) (totals : CycleTotals) (cycled : JobState) (sent : SentMint) (state : JobState) : Prop where
  cycle : CycleSent market job chain context answer tax cycle totals cycled
  mint : MintSent job chain totals cycled sent state

theorem runJob_minted (fresh : FreshJob job.toJob) {commit : RebalanceCommit} {final : JobState}
    (ran : (runJob job chain context market answer mint rest).run fresh.toJobState = (.ok commit, final)) :
    ∃ tax cycle totals cycled sent state, LiveMinted market job chain context answer tax cycle totals cycled sent state ∧
      (commitLive job chain context totals sent rest).run state = (.ok commit, final) ∧
      ∀ other, (runJob job chain context market answer mint other).run fresh.toJobState =
        (commitLive job chain context totals sent other).run state := by
  obtain ⟨totals, cycled, swapped, ran⟩ := bind_returns ran
  obtain ⟨sent, state, minted, committed⟩ := bind_returns ran
  have cycleSent := @liveCycle_sound market job chain context answer fresh.toFreshState _ rfl
  have vacant := @liveCycle_vacant market job chain context answer _ fresh.vacant
  rw [swapped] at cycleSent vacant
  obtain ⟨tax, cycle, cycleSent⟩ := cycleSent
  have mintSent := @mintLive_sent job chain totals cycled vacant mint _ rfl
  rw [minted] at mintSent
  refine ⟨tax, cycle, totals, cycled, sent, state, ⟨cycleSent, mintSent⟩, committed, fun other => ?_⟩
  unfold runJob
  rw [run_bind_ok swapped, run_bind_ok minted]

theorem LiveSound.withCapital {stored : Option FeeTaxContext} {swaps : List SwapIntent} {state : JobState}
    (sound : LiveSound job chain stored swaps state) (capital : Option CapitalHarvestPlan) : LiveSound job chain stored swaps { state with capital } := by
  refine ⟨sound.taxed, ⟨fun swap member => ?_, sound.intact.apart, sound.intact.complete, sound.intact.planned⟩, sound.listed, sound.sent, sound.audited⟩
  obtain ⟨slot, confirmed, succeeded, index, row, record⟩ := sound.intact.held swap member
  exact ⟨slot, confirmed, succeeded, index, row, record⟩

section
variable {tax : FeeTaxPlan} {cycle : CyclePlan} {totals : CycleTotals} {cycled state final : JobState} {sent : SentMint}

section

variable (minted : LiveMinted market job chain context answer tax cycle totals cycled sent state)
include minted

theorem LiveMinted.sound
    (same : FactsSame job.toJob state final) : LiveSound job chain (some tax.context) (tax.swaps ++ cycle.swaps) final :=
  ((LiveSound.withCapital minted.cycle.sound (some sent.capital)).same minted.mint.swaps).same same.swaps

theorem LiveMinted.settled
    (same : FactsSame job.toJob state final) : final.settled = cycled.settled :=
  same.swaps.settled.trans minted.mint.swaps.settled

theorem LiveMinted.capital
    (same : FactsSame job.toJob state final) : final.capital = some sent.capital :=
  same.swaps.capital.trans minted.mint.swaps.capital

end

end

end

section
variable {job : CollectedJob} {chain : LoggedChain job.owner} {context : StoredContext} {state : JobState}

theorem commitMint_minted (univ4 : job.univ4 = true) (value : Hash → Nat) (otherAllocations : Address → ℤ) {hash : Hash}
    (minted : Minted job.toJob hash state)
    (tokenId : (receiptV4MintedTokenId (chain.receiptOf hash) job.positionManager job.owner).any (· ≠ 0) = true)
    (paid : 0 ≤ paidInto chain.toChainFacts hash job.pair.token0 ∧ 0 ≤ paidInto chain.toChainFacts hash job.pair.token1) :
    ((commitMint job.toRebalanceJob chain.toChainFacts context.toPrecheckContext value (.ok ()) otherAllocations).run state).1 =
      commitFromChainFacts job.toRebalanceJob chain.toChainFacts context.toPrecheckContext state
        (recoveredPaid chain.toChainFacts value hash job.pair.token0) (recoveredPaid chain.toChainFacts value hash job.pair.token1)
        otherAllocations := by
  have receipt : SwapJob.confirmedAt job.toJob chain.toChainFacts state 8 = some (chain.receiptOf hash) := minted.confirmedAt
  have paidThen := mintFacts_live univ4 value tokenId paid
  unfold commitMint
  rw [run_bind_ok (run_read state)]
  dsimp only
  rw [receipt]
  dsimp only
  rw [run_bind_ok (run_reply_ok paidThen state)]
  dsimp only
  rw [run_bind_ok (run_reply_ok rfl state)]
  rfl

end

/-- A live run on univ4 that committed deployed what it paid and what it carries. From the same facts, with a wallet that covers
it, recovery commits the same if and only if nothing of the mint's value came back and no confirmed swap takes or pays the native
currency. -/
theorem recovered_commit_iff (market : Market) (job : CollectedJob) (univ4 : job.univ4 = true) (chain : LoggedChain job.owner)
    (context : StoredContext) (value : Hash → Nat) (fresh : FreshJob job.toJob) (answer : LiveReply) (mint : MintReply) (rest : CommitReply)
    (calm : CalmRun job.toRebalanceJob answer rest) {commit : RebalanceCommit} {final : JobState}
    (ran : (runJob job.toRebalanceJob chain.toChainFacts context.toPrecheckContext market answer mint rest).run fresh.toJobState = (.ok commit, final))
    {state : JobState} (same : FactsSame job.toJob final state) {otherAllocations : Address → ℤ}
    (covered : Covered job.toRebalanceJob commit state.wallet otherAllocations) :
    ∃ receipt capital, confirmedAt job.toJob chain.toChainFacts final mintStep = some receipt ∧ final.capital = some capital ∧
      capital.deploy0 = paidInto chain.toChainFacts receipt.transactionHash job.pair.token0 + commit.principalCarry0 ∧
      capital.deploy1 = paidInto chain.toChainFacts receipt.transactionHash job.pair.token1 + commit.principalCarry1 ∧
      (((commitMint job.toRebalanceJob chain.toChainFacts context.toPrecheckContext value (.ok ()) otherAllocations).run state).1 = .ok commit ↔
        sweptBack job.pair chain.toChainFacts value receipt.transactionHash = 0 ∧ ∀ swap ∈ final.settled, ¬ Native swap) := by
  obtain ⟨tax, cycle, totals, cycled, sent, middle, minted, committed, _⟩ := runJob_minted fresh ran
  have kept : FactsSame job.toJob middle final := by
    have after := @commitLive_left job.toRebalanceJob chain.toChainFacts context.toPrecheckContext totals sent rest middle
    unfold left at after
    rw [committed] at after
    exact after
  have done : Committed job.toRebalanceJob chain.toChainFacts context.toPrecheckContext totals sent commit := by
    have after := @commitLive_committed job.toRebalanceJob chain.toChainFacts context.toPrecheckContext totals cycled univ4 sent middle
      minted.mint rest calm.mint middle rfl
    rw [committed] at after
    exact after
  have facts := kept.trans same
  obtain ⟨hash, known⟩ : ∃ hash, sent.receipt.transactionHash = hash := ⟨_, rfl⟩
  have shown : sent.receipt = chain.receiptOf hash := by rw [← known]; exact minted.mint.shown
  have finalMint := minted.mint.minted.same kept
  have stateMint := minted.mint.minted.same facts
  obtain ⟨tokenId, paid, counted, parts⟩ := done
  rw [known] at finalMint stateMint paid counted
  rw [shown] at tokenId
  -- what the live run counts is what the replay finds, and the reward that is held
  obtain ⟨total, accepted⟩ := minted.cycle.counted fun intent _ reply among => ⟨calm.swaps reply among _, calm.swaps reply among _⟩
  obtain ⟨deployed, isDeployed⟩ : ∃ deployed, deployed = fundTotals job.handling (deployableFunds job.toRebalanceJob context.toPrecheckContext
    tax.fee0AfterTax tax.fee1AfterTax tax.rewardAfterTax) + liveTotal job.toJob chain.toChainFacts cycled.settled := ⟨_, rfl⟩
  have split : totals = deployed + rewardTotals job.toRebalanceJob tax.rewardAfterTax := by
    rw [total, isDeployed, add_right_comm]
  have lp : sent.capital.deploy0 + sent.capital.profit0 = deployed.lp0 ∧ sent.capital.deploy1 + sent.capital.profit1 = deployed.lp1 := by
    have splits := minted.mint.splits
    rw [split] at splits
    exact ⟨splits.1.trans (add_zero _), splits.2.trans (add_zero _)⟩
  have settled := minted.settled facts
  have found := fun found => @replayedFacts_ok market job chain context state tax cycle sent.capital found minted.cycle.planned
    (minted.sound facts) (by rw [settled]; exact accepted) deployed (by rw [settled]; exact isDeployed) (minted.capital facts) lp
  rw [split] at counted
  refine ⟨sent.receipt, sent.capital, ?_, minted.capital kept, ?_, ?_, ?_⟩
  · rw [finalMint.confirmedAt, shown]
  · rw [known, counted]
    exact (add_sub_cancel _ _).symm
  · rw [known, counted]
    exact (add_sub_cancel _ _).symm
  · rw [commitMint_minted univ4 value otherAllocations stateMint tokenId paid, known, ← paid_agrees, ← same.swaps.settled]
    constructor
    · intro commits
      have replays := commits
      unfold commitFromChainFacts at replays
      obtain ⟨_, replays, _⟩ := bind_ok replays
      obtain ⟨erc20, rfl⟩ := (found _).mp replays
      have again := ((commitFromChainFacts_ok replays rfl).mp commits).1
      rw [counted] at again
      have carry0 : sent.capital.deploy0 - _ = sent.capital.deploy0 - _ := congrArg RebalanceCommit.principalCarry0 again
      have carry1 : sent.capital.deploy1 - _ = sent.capital.deploy1 - _ := congrArg RebalanceCommit.principalCarry1 again
      exact ⟨⟨(sub_right_inj.mp carry0).symm, (sub_right_inj.mp carry1).symm⟩, erc20⟩
    · rintro ⟨⟨paid0, paid1⟩, erc20⟩
      have replays := (found _).mpr ⟨erc20, rfl⟩
      obtain ⟨carry0, carry1, fee0, fee1, profit0, profit1⟩ := parts
      have allocation0 : commit.allocation0 = commit.principalCarry0 + commit.heldFee0 + commit.heldProfit0 := by rw [counted]; rfl
      have allocation1 : commit.allocation1 = commit.principalCarry1 + commit.heldFee1 + commit.heldProfit1 := by rw [counted]; rfl
      rw [paid0, paid1]
      refine (commitFromChainFacts_ok replays counted).mpr ⟨rfl, ⟨?_, ?_⟩, covered⟩
      · rw [allocation0]
        exact add_nonneg (add_nonneg carry0 fee0) profit0
      · rw [allocation1]
        exact add_nonneg (add_nonneg carry1 fee1) profit1

def exampleMintLogs (first : Address) : List Log :=
  (if first = zeroAddress then [] else [{ address := first, event := .transfer 100 60 900 }]) ++
    [{ address := 50, event := .positionTransfer zeroAddress 100 7 }]

def exampleMintChain (first : Address) : LoggedChain 100 where
  toChainFacts := ChainFacts.ofEntries 100 (fun _ => .success) (fun _ => 10) (fun _ => exampleMintLogs first) (fun _ => -900)
  silent := by
    intro hash log member
    change log ∈ exampleMintLogs first at member
    unfold exampleMintLogs at member
    rcases List.mem_append.mp member with paid | minted
    · split at paid
      · cases paid
      · rename_i erc20
        rw [List.mem_singleton.mp paid]
        exact erc20
    · rw [List.mem_singleton.mp minted]
      decide

def exampleFreshJob (job : Job) : FreshJob job where
  toFreshState := exampleFresh job
  vacant := ⟨fun _ member => absurd member List.not_mem_nil, fun _ _ _ => rfl⟩

def exampleLive : LiveReply := { exampleAnswer with units := .ok ⟨1, 0⟩, swaps := [] }

def exampleMint : MintReply where
  risk := .ok ()
  valuation := .ok { activeValueQuote := 1000, capitalCapQuote := 0, excessValueUsdg := 0, thresholdUsdg := 5 }
  grants0 := .ok []
  grants1 := .ok []
  mint := .ok { txTo := 50, calldataHash := 71, nonce := 0, outcome := .mined 9 (.ok ()) }

def exampleCommit : CommitReply where
  balances := .ok ()
  drift _ := 0
  minted := .ok ()
  revokes0 := .ok []
  revokes1 := .ok []
  approvals := .ok []
  stakes := .ok []
  later _ := 0
  otherAllocations _ := 0

def exampleRun (first : Address) (distinct : first ≠ 1) : Except ErrorCode RebalanceCommit × JobState :=
  (runJob (exampleJob first distinct).toRebalanceJob (exampleMintChain first).toChainFacts exampleContext.toPrecheckContext exampleMarket
    exampleLive exampleMint exampleCommit).run (exampleFreshJob (exampleJob first distinct).toJob).toJobState

def exampleRecovered (first : Address) (distinct : first ≠ 1) : Except ErrorCode RebalanceCommit :=
  ((commitMint (exampleJob first distinct).toRebalanceJob (exampleMintChain first).toChainFacts exampleContext.toPrecheckContext (fun _ => 1000)
    (.ok ()) fun _ => 0).run (exampleRun first distinct).2).1

def exampleCarry : RebalanceCommit where
  allocation0 := 100
  allocation1 := 0
  principalCarry0 := 100
  principalCarry1 := 0
  heldFee0 := 0
  heldFee1 := 0
  heldProfit0 := 0
  heldProfit1 := 0

theorem recovered_commit_iff_erc20 : exampleRecovered 2 (by decide) = .ok exampleCarry := by
  have ran : exampleRun 2 (by decide) = (.ok exampleCarry, (exampleRun 2 (by decide)).2) := Prod.ext rfl rfl
  have calm : CalmRun (exampleJob 2 (by decide)).toRebalanceJob exampleLive exampleCommit :=
    ⟨fun _ member => absurd member List.not_mem_nil, rfl, rfl⟩
  have covered : Covered (exampleJob 2 (by decide)).toRebalanceJob exampleCarry (exampleRun 2 (by decide)).2.wallet fun _ => 0 := by decide
  obtain ⟨receipt, capital, _, _, _, _, commits⟩ := recovered_commit_iff exampleMarket (exampleJob 2 (by decide)) rfl (exampleMintChain 2)
    exampleContext (fun _ => 1000) (exampleFreshJob _) exampleLive exampleMint exampleCommit calm ran (FactsSame.refl _) covered
  exact commits.mpr ⟨rfl, fun swap member => absurd member List.not_mem_nil⟩

/-- The live run carries the 100 that came back; recovery of the same facts commits without them. -/
theorem native_refund_dropped : ∃ live recovered, (exampleRun 0 (by decide)).1 = .ok live ∧ exampleRecovered 0 (by decide) = .ok recovered ∧
    live.principalCarry0 = 100 ∧ recovered.principalCarry0 = 0 :=
  ⟨_, _, rfl, rfl, rfl, rfl⟩

end LpTerminal.LiveCommit
