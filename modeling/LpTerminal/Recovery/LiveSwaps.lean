import LpTerminal.Recovery.WalletRun

/-!
The swaps of the live run: planned at once, each in the slot of its place, sent and checked one after the
other, and written down as they are executed.
-/

namespace LpTerminal.LiveSwaps

open Durable Fallible FeeTax FromWallet Rebalance Receipts SettledSwaps Store SwapJob SwapLegs SwapReplay WalletRun

structure LiveReply where
  taxQuotes : QuoteFn
  burn : Option Send
  units : Except ErrorCode TargetUnits
  cycleQuotes : QuoteFn
  limits : Except ErrorCode Unit
  swaps : List SwapReply

structure FreshState (job : Job) extends JobState where
  noRow : ∀ txIndex, journal.get? (swapSlot job txIndex) = none
  noPlan : swapPlan = Table.empty
  noAudit : executedSwaps = []
  noTax : feeTax = none
  noSettled : settled = []

section
variable (market : Market) (job : RebalanceJob) (chain : ChainFacts job.owner) (context : PrecheckContext)

def livePlan (swaps : List SwapIntent) : Table SwapPlanRecord.txIndex :=
  (swaps.mapIdx planRecord).foldl Table.put Table.empty

def refreshSlot (txIndex : Nat) (prepared : PreparedSwap) : Durable ErrorCode JobState Unit :=
  write fun state =>
    match state.swapPlan.get? txIndex with
    | some record => { state with swapPlan := state.swapPlan.put (refreshed record prepared) }
    | none => state

def executableIntent (intent : SwapIntent) (prepared : PreparedSwap) : SwapIntent :=
  { intent with quotedOut := prepared.amountOut }

def executedAudit (intent : SwapIntent) (prepared : PreparedSwap) (spent gained : ℤ) (receipt : Receipt) : ExecutedSwapAudit where
  txHash := receipt.transactionHash
  intent := executableIntent intent prepared
  spent := spent
  gained := gained
  routeAmountOut := prepared.amountOut
  routeMinOut := prepared.minOut

structure LoopState where
  totals : CycleTotals
  approvalTx : Nat
  executed : List ExecutedSwapAudit

def liveSwap (loop : LoopState) (txIndex : Nat) (intent : SwapIntent) (answer : SwapReply) : Durable ErrorCode JobState LoopState := do
  let approvals ← reply answer.approvals
  sendAllowances job.toJob chain 4 loop.approvalTx approvals
  let prepared ← reply answer.prepared
  refreshSlot txIndex prepared
  let before ← read
  let receipt ← trackedSend job.toJob chain swapStep txIndex answer.send
  driftWallet answer.drift
  let after ← read
  let spent := spentByWallet (before.wallet intent.tokenIn) (after.wallet intent.tokenIn) receipt intent.tokenIn
  let gained := receivedByWallet (before.wallet intent.tokenOut) (after.wallet intent.tokenOut) receipt intent.tokenOut
  let execution ← reply (allocateSwapExecution (executableIntent intent prepared) spent gained prepared.minOut)
  let revokes ← reply answer.revokes
  sendAllowances job.toJob chain 4 (loop.approvalTx + approvals.length) revokes
  let executed := loop.executed ++ [executedAudit intent prepared spent gained receipt]
  write fun state => { state with executedSwaps := executed }
  return { totals := loop.totals + executionEffect job.pair job.handling (executableIntent intent prepared) execution
           approvalTx := loop.approvalTx + approvals.length + revokes.length
           executed }

def liveSwaps (loop : LoopState) (txIndex : Nat) : List SwapIntent → List SwapReply → Durable ErrorCode JobState LoopState
  | [], _ => return loop
  | _ :: _, [] => fail .transport
  | intent :: rest, answer :: answers => do
    let loop ← liveSwap job chain loop txIndex intent answer
    liveSwaps loop (txIndex + 1) rest answers

def burnLive : Option Send → Durable ErrorCode JobState Unit
  | none => return ()
  | some send => tolerate (trackedSend job.toJob chain 3 0 send)

def rewardTotals (rewardAfterTax : ℤ) : CycleTotals where
  lp0 := 0
  lp1 := 0
  held0 := heldReward job rewardAfterTax job.pair.token0
  held1 := heldReward job rewardAfterTax job.pair.token1

/-- `runJob` from the tax to the last swap; the totals are what is left to deploy and to hold. -/
def liveCycle (answer : LiveReply) : Durable ErrorCode JobState CycleTotals := do
  let tax ← reply (planFeeTax market answer.taxQuotes job.pair.token0 job.pair.token1 job.funds.fee0 job.funds.fee1
    job.pair.quoteToken job.rewardQuote)
  write fun state => { state with feeTax := some tax.context }
  burnLive job chain answer.burn
  let units ← reply answer.units
  let cycle ← reply (planCycleSwaps job.pair answer.cycleQuotes job.handling units
    (deployableFunds job context tax.fee0AfterTax tax.fee1AfterTax tax.rewardAfterTax))
  write fun state => { state with swapPlan := livePlan (tax.swaps ++ cycle.swaps) }
  reply answer.limits
  let loop ← liveSwaps job chain ⟨cycle.totals + rewardTotals job tax.rewardAfterTax, 0, []⟩ 0 (tax.swaps ++ cycle.swaps) answer.swaps
  return loop.totals

end

/-- The settled swaps hold their slots with the very records they were sent with; every record is of its place in the plan,
in a slot that has a row with the quote and the minimum of its transaction; and every audit is of a settled swap. -/
structure LiveSound (job : RebalanceJob) (chain : ChainFacts job.owner) (stored : Option FeeTaxContext) (swaps : List SwapIntent)
    (state : JobState) : Prop where
  taxed : state.feeTax = stored
  intact : Intact (· = ·) job.toJob chain state
  listed : ∀ record ∈ state.swapPlan.rows, ∃ intent, swaps[record.txIndex]? = some intent ∧
    SameSwap record (planRecord record.txIndex intent)
  sent : ∀ txIndex row, state.journal.get? (swapSlot job.toJob txIndex) = some row → ∃ intent prepared,
    swaps[txIndex]? = some intent ∧ state.swapPlan.get? txIndex = some (refreshed (planRecord txIndex intent) prepared)
  audited : ∀ audit ∈ state.executedSwaps, ∃ swap ∈ state.settled, swap.row.txHash = some audit.txHash ∧
    { audit.intent with quotedOut := audit.routeAmountOut } = plannedIntent swap.record

variable {prepared : PreparedSwap}

section
variable {job : RebalanceJob} {chain : ChainFacts job.owner} {stored : Option FeeTaxContext} {swaps : List SwapIntent}
variable {start state : JobState}

theorem LiveSound.same (sound : LiveSound job chain stored swaps start) (same : SwapsSame job.toJob start state) :
    LiveSound job chain stored swaps state := by
  refine ⟨same.tax.trans sound.taxed, sound.intact.same same, ?_, fun txIndex row read => ?_, ?_⟩
  · rw [same.plan]
    exact sound.listed
  · rw [same.rows] at read
    rw [same.plan]
    exact sound.sent txIndex row read
  · rw [same.audits, same.settled]
    exact sound.audited

theorem FreshState.sound (fresh : FreshState job.toJob) : LiveSound job chain none swaps fresh.toJobState := by
  refine ⟨fresh.noTax, ⟨fun swap member => ?_, ?_, fun txIndex row read => ?_, fun txIndex row read => ?_⟩, fun record member => ?_,
    fun txIndex row read => ?_, fun audit member => ?_⟩
  · rw [fresh.noSettled] at member
    cases member
  · rw [fresh.noSettled]
    exact List.Pairwise.nil
  · rw [fresh.noRow] at read
    cases read
  · rw [fresh.noRow] at read
    cases read
  · rw [fresh.noPlan] at member
    cases member
  · rw [fresh.noRow] at read
    cases read
  · rw [fresh.noAudit] at member
    cases member

theorem trackedSend_slot (txIndex : Nat) (send : Send) :
    Keeps (fun state => SlotOnly job.toJob start state.journal txIndex) (trackedSend job.toJob chain swapStep txIndex send) := by
  apply trackedSend_keeps
  · intro transaction hash error
    apply note_keeps
    intro state journal only marked other different
    exact (sendMark_only marked other different).trans (only other different)
  · intro hash state only other different
    rw [land_journal]
    exact only other different
  · intro state only other different
    rw [settle_journal]
    exact only other different

section

variable (sound : LiveSound job chain stored swaps start)
include sound

theorem LiveSound.free {txIndex : Nat}
    (empty : start.journal.get? (swapSlot job.toJob txIndex) = none) : Free start txIndex := by
  apply sound.intact.free
  intro row read
  rw [empty] at read
  cases read

theorem LiveSound.recorded {txIndex : Nat} {intent : SwapIntent}
    (place : swaps[txIndex]? = some intent) (empty : start.journal.get? (swapSlot job.toJob txIndex) = none) :
    LiveSound job chain stored swaps (withRecord start (refreshed (planRecord txIndex intent) prepared)) := by
  refine ⟨sound.taxed, sound.intact.recorded fun swap member clash => absurd clash (sound.free empty swap member), fun record member => ?_,
    fun other row read => ?_, sound.audited⟩
  · rcases Table.mem_put.mp member with rfl | ⟨old, _⟩
    · exact ⟨intent, place, refreshed_same _ _⟩
    · exact sound.listed record old
  · obtain ⟨intent, prepared, place, stored⟩ := sound.sent other row read
    refine ⟨intent, prepared, place, (Table.get?_put_other ?_).trans stored⟩
    intro own
    change other = txIndex at own
    change start.journal.get? _ = _ at read
    rw [own, empty] at read
    cases read

theorem LiveSound.afterSend {txIndex : Nat} {intent : SwapIntent}
    (place : swaps[txIndex]? = some intent) (written : start.swapPlan.get? txIndex = some (refreshed (planRecord txIndex intent) prepared))
    (intact : Intact (· = ·) job.toJob chain state) (sent : SentFrom txIndex (refreshed (planRecord txIndex intent) prepared) start state)
    (only : SlotOnly job.toJob start state.journal txIndex) : LiveSound job chain stored swaps state := by
  refine ⟨sent.tax.trans sound.taxed, intact, ?_, fun other row read => ?_, fun audit member => ?_⟩
  · rw [sent.plan]
    exact sound.listed
  · rw [sent.plan]
    by_cases own : other = txIndex
    · subst own
      exact ⟨intent, prepared, place, written⟩
    · rw [only other own] at read
      exact sound.sent other row read
  · rw [sent.audits] at member
    obtain ⟨swap, settled, found⟩ := sound.audited audit member
    exact ⟨swap, SentFrom.kept sent swap settled, found⟩

theorem LiveSound.withAudit {audit : ExecutedSwapAudit}
    (known : ∃ swap ∈ start.settled, swap.row.txHash = some audit.txHash ∧
      { audit.intent with quotedOut := audit.routeAmountOut } = plannedIntent swap.record) :
    LiveSound job chain stored swaps { start with executedSwaps := start.executedSwaps ++ [audit] } := by
  refine ⟨sound.taxed, ⟨fun swap member => ?_, sound.intact.apart, sound.intact.complete, sound.intact.planned⟩, sound.listed,
    sound.sent, fun found member => ?_⟩
  · obtain ⟨slot, confirmed, succeeded, index, row, record⟩ := sound.intact.held swap member
    exact ⟨slot, confirmed, succeeded, index, row, record⟩
  · rcases List.mem_append.mp member with old | new
    · exact sound.audited found old
    · cases List.mem_singleton.mp new
      exact known

end

end

def Undisturbed (intent : SwapIntent) (answer : SwapReply) : Prop :=
  answer.drift intent.tokenIn = 0 ∧ answer.drift intent.tokenOut = 0

def walletSpent {owner : Address} (chain : ChainFacts owner) (swap : SettledSwap) : ℤ :=
  -chain.moved (swap.row.txHash.getD 0) swap.record.tokenIn

def walletGained {owner : Address} (chain : ChainFacts owner) (swap : SettledSwap) : ℤ :=
  chain.moved (swap.row.txHash.getD 0) swap.record.tokenOut

def LiveAccepted {owner : Address} (chain : ChainFacts owner) (swap : SettledSwap) : Prop :=
  ∃ minOut, swap.record.minOut = some minOut ∧ Accepts (plannedIntent swap.record) (walletSpent chain swap) (walletGained chain swap) minOut

instance {owner : Address} {chain : ChainFacts owner} {swap : SettledSwap} : Decidable (LiveAccepted chain swap) :=
  match written : swap.record.minOut with
  | none => .isFalse fun ⟨_, least, _⟩ => by rw [written] at least; cases least
  | some minOut => decidable_of_iff (Accepts (plannedIntent swap.record) (walletSpent chain swap) (walletGained chain swap) minOut)
      ⟨fun accepts => ⟨minOut, written, accepts⟩, fun ⟨_, least, accepts⟩ => by rw [written] at least; cases least; exact accepts⟩

def liveEffect (job : Job) (chain : ChainFacts job.owner) (swap : SettledSwap) : CycleTotals :=
  executionEffect job.pair job.handling (plannedIntent swap.record)
    (executionOf (plannedIntent swap.record) (walletSpent chain swap) (walletGained chain swap))

/-- What a swap of the live run leaves: its own slot settled, and the totals grown by what it counts. -/
structure SwapSent (job : RebalanceJob) (chain : ChainFacts job.owner) (loop : LoopState) (txIndex : Nat) (intent : SwapIntent)
    (answer : SwapReply) (start : JobState) (after : LoopState) (state : JobState) : Prop where
  rows : SlotOnly job.toJob start state.journal txIndex
  plan : ∀ other, other ≠ txIndex → state.swapPlan.get? other = start.swapPlan.get? other
  audits : state.executedSwaps = after.executed
  tax : state.feeTax = start.feeTax
  settled : ∃ swap, swap.row.txIndex = txIndex ∧ state.settled = swap :: start.settled ∧
    (Undisturbed intent answer → after.totals = loop.totals + liveEffect job.toJob chain swap ∧ LiveAccepted chain swap)

section
variable {job : RebalanceJob} {chain : ChainFacts job.owner} {stored : Option FeeTaxContext} {swaps : List SwapIntent}
variable {start state : JobState}
variable {loop : LoopState} {txIndex : Nat} {intent : SwapIntent} {answer : SwapReply}

theorem read_moved (undisturbed : Undisturbed intent answer) {before after : JobState} {hash : Hash} {minOut : ℤ}
    (wallet : after.wallet = (land job.toJob chain swapStep hash before).wallet)
    (accepted : Accepts intent
      (spentByWallet (before.wallet intent.tokenIn) (after.wallet intent.tokenIn + answer.drift intent.tokenIn)
        (chain.receiptOf hash) intent.tokenIn)
      (receivedByWallet (before.wallet intent.tokenOut) (after.wallet intent.tokenOut + answer.drift intent.tokenOut)
        (chain.receiptOf hash) intent.tokenOut) minOut) :
    spentByWallet (before.wallet intent.tokenIn) (after.wallet intent.tokenIn + answer.drift intent.tokenIn)
        (chain.receiptOf hash) intent.tokenIn = -chain.moved hash intent.tokenIn ∧
      receivedByWallet (before.wallet intent.tokenOut) (after.wallet intent.tokenOut + answer.drift intent.tokenOut)
        (chain.receiptOf hash) intent.tokenOut = chain.moved hash intent.tokenOut := by
  obtain ⟨stillIn, stillOut⟩ := undisturbed
  have spends := accepted.2.2.2.2.1
  rw [stillIn, wallet, land_wallet] at spends
  by_cases mined : hash ∈ before.mined.map Prod.snd
  · -- a transaction mined before moves nothing now, and gas is no input
    rw [if_pos mined] at spends
    unfold spentByWallet at spends
    split at spends
    · have gas := Int.natCast_nonneg (receiptGas (chain.receiptOf hash))
      omega
    · omega
  · rw [stillIn, stillOut, wallet, land_wallet, land_wallet, if_neg mined, if_neg mined, add_zero, add_zero]
    exact ⟨spentByWallet_felt chain hash _ _, receivedByWallet_felt chain hash _ _⟩

theorem trackedSend_live (sound : LiveSound job chain stored swaps start) (place : swaps[txIndex]? = some intent)
    (written : start.swapPlan.get? txIndex = some (refreshed (planRecord txIndex intent) prepared))
    (empty : start.journal.get? (swapSlot job.toJob txIndex) = none) (send : Send) :
    Triple (· = start) (trackedSend job.toJob chain swapStep txIndex send)
      (fun receipt state => LiveSound job chain stored swaps state ∧ SlotOnly job.toJob start state.journal txIndex ∧
        SentFrom txIndex (refreshed (planRecord txIndex intent) prepared) start state ∧
        Settles job.toJob chain txIndex (refreshed (planRecord txIndex intent) prepared) start receipt state)
      (LiveSound job chain stored swaps) := by
  have both := triple_both (trackedSend_swap sound.intact (sound.free empty) written rfl send)
    (@trackedSend_slot job chain start txIndex send)
  refine triple_weaken both (fun state here => ⟨here, ?_⟩) ?_ ?_
  · rw [here]
    exact fun _ _ => rfl
  · rintro receipt state ⟨⟨intact, sent, settles⟩, only⟩
    exact ⟨sound.afterSend place written intact sent only, only, sent, settles⟩
  · rintro state ⟨⟨intact, sent⟩, only⟩
    exact sound.afterSend place written intact sent only

theorem liveSwap_sound (sound : LiveSound job chain stored swaps start) (executed : start.executedSwaps = loop.executed)
    (place : swaps[txIndex]? = some intent) (recorded : start.swapPlan.get? txIndex = some (planRecord txIndex intent))
    (empty : start.journal.get? (swapSlot job.toJob txIndex) = none) :
    Triple (· = start) (liveSwap job chain loop txIndex intent answer)
      (fun after state => LiveSound job chain stored swaps state ∧ SwapSent job chain loop txIndex intent answer start after state)
      (LiveSound job chain stored swaps) := by
  have stays : ∀ state, SwapsSame job.toJob start state → LiveSound job chain stored swaps state := fun state same => sound.same same
  unfold liveSwap
  apply triple_reply_at
  · intro approvals _
    refine triple_bind (triple_weaken (sendAllowances_same (by decide) _ _) (fun state here => ?_) (fun _ _ same => same) stays) fun _ => ?_
    · rw [here]
      exact SwapsSame.refl _
    apply triple_each
    intro found same
    apply triple_reply_at
    · intro prepared _
      -- the record is refreshed in a slot without a row
      have record : found.swapPlan.get? txIndex = some (planRecord txIndex intent) := by rw [same.plan]; exact recorded
      have untouched : found.journal.get? (swapSlot job.toJob txIndex) = none := (same.rows txIndex).trans empty
      have quoted : LiveSound job chain stored swaps (withRecord found (refreshed (planRecord txIndex intent) prepared)) :=
        (stays found same).recorded place untouched
      have written : (withRecord found (refreshed (planRecord txIndex intent) prepared)).swapPlan.get? txIndex =
          some (refreshed (planRecord txIndex intent) prepared) := Table.get?_put_same found.swapPlan _
      unfold refreshSlot
      apply triple_write_at
      rw [record]
      change Triple (· = withRecord found (refreshed (planRecord txIndex intent) prepared)) _ _ _
      apply triple_read_at
      refine triple_bind (trackedSend_live quoted place written untouched answer.send) fun receipt => ?_
      apply triple_each
      rintro sent ⟨sentSound, only, from_, row, hash, index, hashed, shown, _, settled, wallet⟩
      subst shown
      unfold driftWallet
      apply triple_write_at
      apply triple_read_at
      have drifted : SwapsSame job.toJob sent { sent with wallet := fun token => sent.wallet token + answer.drift token } :=
        ⟨fun _ => rfl, rfl, rfl, rfl, rfl, rfl⟩
      apply triple_reply_at
      · intro execution allocated
        obtain ⟨accepted, rfl⟩ := allocateSwapExecution_ok.mp allocated
        apply triple_reply_at
        · intro revokes _
          refine triple_bind (triple_weaken (sendAllowances_same (by decide) _ _) (fun state here => ?_) (fun _ _ same => same)
            fun state same => sentSound.same same) fun _ => ?_
          · rw [here]
            exact drifted
          apply triple_each
          intro final last
          apply triple_write_at
          rintro state rfl
          have finalSound := sentSound.same last
          have kept : final.settled = ⟨row, refreshed (planRecord txIndex intent) prepared⟩ :: start.settled := by
            rw [last.settled, settled]
            exact congrArg _ same.settled
          have audits : final.executedSwaps = loop.executed := by
            rw [last.audits, from_.audits]
            exact same.audits.trans executed
          rw [← audits]
          refine ⟨finalSound.withAudit ⟨⟨row, refreshed (planRecord txIndex intent) prepared⟩, ?_, ?_, rfl⟩, ⟨?_, ?_, rfl, ?_, _, index, kept, ?_⟩⟩
          · rw [kept]
            exact List.mem_cons_self
          · change row.txHash = some (chain.receiptOf hash).transactionHash
            rw [chain.named, hashed]
          · intro other different
            exact (last.rows other).trans ((only other different).trans (same.rows other))
          · intro other different
            change final.swapPlan.get? other = _
            rw [last.plan, from_.plan, ← same.plan]
            exact Table.get?_put_other different
          · exact last.tax.trans (from_.tax.trans same.tax)
          · intro undisturbed
            have felt : sent.wallet = (land job.toJob chain swapStep hash found).wallet := by
              rw [wallet, withRecord_wallet]
            obtain ⟨spent, gained⟩ := read_moved undisturbed felt accepted
            dsimp only [withRecord] at accepted ⊢
            rw [spent, gained] at accepted ⊢
            have known : row.txHash.getD 0 = hash := by rw [hashed]; rfl
            constructor
            · unfold liveEffect walletSpent walletGained
              rw [known]
              rfl
            · refine ⟨prepared.minOut, rfl, ?_⟩
              unfold walletSpent walletGained
              rw [known]
              exact accepted
        · intro _ _
          exact sentSound.same drifted
      · intro _ _
        exact sentSound.same drifted
    · intro _ _
      exact stays found same
  · intro _ _
    exact sound

def liveTotal (job : Job) (chain : ChainFacts job.owner) (swaps : List SettledSwap) : CycleTotals :=
  (swaps.map (liveEffect job chain)).sum

def AllSettled (job : Job) (state : JobState) : Prop :=
  ∀ txIndex row, state.journal.get? (swapSlot job txIndex) = some row → ∃ swap ∈ state.settled, swap.row = row

/-- What the loop leaves: more swaps settled, and the totals grown by what it counts of them. -/
structure LoopSent (job : RebalanceJob) (chain : ChainFacts job.owner) (loop : LoopState) (intents : List SwapIntent)
    (answers : List SwapReply) (start : JobState) (after : LoopState) (state : JobState) : Prop where
  audits : state.executedSwaps = after.executed
  tax : state.feeTax = start.feeTax
  rows : AllSettled job.toJob start → AllSettled job.toJob state
  settled : ∃ new, state.settled = new ++ start.settled ∧
    ((∀ intent ∈ intents, ∀ answer ∈ answers, Undisturbed intent answer) →
      after.totals = loop.totals + liveTotal job.toJob chain new ∧ ∀ swap ∈ new, LiveAccepted chain swap)

theorem SwapSent.all {after : LoopState} (sent : SwapSent job chain loop txIndex intent answer start after state)
    (intact : Intact (· = ·) job.toJob chain state) (all : AllSettled job.toJob start) : AllSettled job.toJob state := by
  obtain ⟨swap, index, settled, _⟩ := sent.settled
  have member : swap ∈ state.settled := by
    rw [settled]
    exact List.mem_cons_self
  intro other row read
  by_cases own : other = txIndex
  · have placed := (intact.held swap member).row
    rw [index, ← own, read] at placed
    exact ⟨swap, member, (Option.some.inj placed).symm⟩
  · rw [sent.rows other own] at read
    obtain ⟨old, among, same⟩ := all other row read
    refine ⟨old, ?_, same⟩
    rw [settled]
    exact List.mem_cons_of_mem _ among

theorem liveSwaps_sound {intents : List SwapIntent} {answers : List SwapReply} (sound : LiveSound job chain stored swaps start)
    (executed : start.executedSwaps = loop.executed) (places : swaps.drop txIndex = intents)
    (recorded : ∀ other intent, txIndex ≤ other → swaps[other]? = some intent → start.swapPlan.get? other = some (planRecord other intent))
    (empty : ∀ other, txIndex ≤ other → start.journal.get? (swapSlot job.toJob other) = none) :
    Triple (· = start) (liveSwaps job chain loop txIndex intents answers)
      (fun after state => LiveSound job chain stored swaps state ∧ LoopSent job chain loop intents answers start after state)
      (LiveSound job chain stored swaps) := by
  induction intents generalizing start loop txIndex answers with
  | nil =>
    apply triple_pure
    rintro state rfl
    refine ⟨sound, executed, rfl, fun all => all, [], rfl, fun _ => ⟨(add_zero _).symm, fun _ member => absurd member List.not_mem_nil⟩⟩
  | cons intent rest ih =>
    cases answers with
    | nil =>
      apply triple_fail
      rintro state rfl
      exact sound
    | cons answer later =>
      have place : swaps[txIndex]? = some intent := by
        have first := @List.getElem?_drop _ swaps txIndex 0
        rw [places] at first
        exact first.symm
      have tail : swaps.drop (txIndex + 1) = rest := by
        rw [← List.tail_drop, places]
        rfl
      refine triple_bind (liveSwap_sound sound executed place (recorded txIndex intent (Nat.le_refl _) place) (empty txIndex (Nat.le_refl _)))
        fun middleLoop => ?_
      apply triple_each
      rintro middle ⟨middleSound, done⟩
      obtain ⟨swap, _, settled, counted⟩ := done.settled
      refine triple_weaken (ih middleSound done.audits tail ?_ ?_) (fun _ here => here) ?_ fun _ stopped => stopped
      · intro other intent after known
        rw [done.plan other (Nat.lt_of_succ_le after).ne']
        exact recorded other intent (Nat.le_of_succ_le after) known
      · intro other after
        rw [done.rows other (Nat.lt_of_succ_le after).ne']
        exact empty other (Nat.le_of_succ_le after)
      · rintro final state ⟨stateSound, sent⟩
        obtain ⟨new, grown, total⟩ := sent.settled
        refine ⟨stateSound, sent.audits, sent.tax.trans done.tax, fun all => sent.rows (done.all middleSound.intact all), new ++ [swap], ?_,
          fun undisturbed => ?_⟩
        · rw [grown, settled, List.append_assoc]
          rfl
        · obtain ⟨effect, accepted⟩ := counted (undisturbed intent List.mem_cons_self answer List.mem_cons_self)
          obtain ⟨effects, each⟩ := total fun other member reply among =>
            undisturbed other (List.mem_cons_of_mem _ member) reply (List.mem_cons_of_mem _ among)
          constructor
          · unfold liveTotal at effects ⊢
            rw [effects, effect, List.map_append, List.sum_append, List.map_singleton, List.sum_singleton, add_assoc]
            exact congrArg _ (add_comm _ _)
          · intro other member
            rcases List.mem_append.mp member with old | this
            · exact each other old
            · cases List.mem_singleton.mp this
              exact accepted

end

theorem livePlan_get? (swaps : List SwapIntent) (txIndex : Nat) :
    (livePlan swaps).get? txIndex = (swaps[txIndex]?).map (planRecord txIndex) := by
  unfold livePlan
  cases place : swaps[txIndex]? with
  | none =>
    have beyond := List.getElem?_eq_none_iff.mp place
    rw [Table.get?_foldl_put_other]
    · rfl
    · intro record member same
      obtain ⟨index, below, rfl⟩ := List.mem_mapIdx.mp member
      have own : txIndex = index := same
      omega
  | some intent =>
    have apart : (swaps.mapIdx planRecord).Pairwise fun first second => first.txIndex ≠ second.txIndex := by
      rw [List.pairwise_iff_getElem]
      intro first second below below' before
      rw [List.getElem_mapIdx, List.getElem_mapIdx]
      exact before.ne
    have member : planRecord txIndex intent ∈ swaps.mapIdx planRecord := by
      obtain ⟨below, same⟩ := List.getElem?_eq_some_iff.mp place
      exact List.mem_mapIdx.mpr ⟨txIndex, below, by rw [same]⟩
    exact Table.get?_foldl_put_of_mem apart member

theorem mem_livePlan {swaps : List SwapIntent} {record : SwapPlanRecord} (member : record ∈ (livePlan swaps).rows) :
    ∃ intent, swaps[record.txIndex]? = some intent ∧ SameSwap record (planRecord record.txIndex intent) := by
  have read := Table.get?_of_mem member
  rw [livePlan_get?] at read
  obtain ⟨intent, place, same⟩ := Option.map_eq_some_iff.mp read
  exact ⟨intent, place, by rw [same]; rfl⟩

section
variable {job : RebalanceJob} {chain : ChainFacts job.owner} {stored : Option FeeTaxContext} {state : JobState}

theorem LiveSound.nothing (sound : LiveSound job chain stored [] state) :
    (∀ txIndex, state.journal.get? (swapSlot job.toJob txIndex) = none) ∧ state.settled = [] ∧ state.executedSwaps = [] := by
  have empty : ∀ txIndex, state.journal.get? (swapSlot job.toJob txIndex) = none := by
    intro txIndex
    apply Option.eq_none_iff_forall_ne_some.mpr
    intro row read
    obtain ⟨_, _, place, _⟩ := sound.sent txIndex row read
    cases place
  have unsettled : state.settled = [] := by
    apply List.eq_nil_iff_forall_not_mem.mpr
    intro swap member
    have row := (sound.intact.held swap member).row
    rw [empty] at row
    cases row
  refine ⟨empty, unsettled, List.eq_nil_iff_forall_not_mem.mpr fun audit member => ?_⟩
  obtain ⟨swap, settled, _⟩ := sound.audited audit member
  rw [unsettled] at settled
  cases settled

theorem LiveSound.withTax {swaps : List SwapIntent} (sound : LiveSound job chain stored swaps state) (feeTax : Option FeeTaxContext) :
    LiveSound job chain feeTax swaps { state with feeTax } := by
  refine ⟨rfl, ⟨fun swap member => ?_, sound.intact.apart, sound.intact.complete, sound.intact.planned⟩, sound.listed, sound.sent, sound.audited⟩
  obtain ⟨slot, confirmed, succeeded, index, row, record⟩ := sound.intact.held swap member
  exact ⟨slot, confirmed, succeeded, index, row, record⟩

theorem LiveSound.plans (sound : LiveSound job chain stored [] state) (swaps : List SwapIntent) :
    LiveSound job chain stored swaps { state with swapPlan := livePlan swaps } := by
  obtain ⟨empty, unsettled, unaudited⟩ := sound.nothing
  refine ⟨sound.taxed, ⟨fun swap member => ?_, sound.intact.apart, sound.intact.complete, fun txIndex row read => ?_⟩,
    fun record member => mem_livePlan member, fun txIndex row read => ?_, sound.audited⟩
  · change swap ∈ state.settled at member
    rw [unsettled] at member
    cases member
  · change state.journal.get? _ = _ at read
    rw [empty] at read
    cases read
  · change state.journal.get? _ = _ at read
    rw [empty] at read
    cases read

end

def PlansTax (market : Market) (job : RebalanceJob) (tax : FeeTaxPlan) : Prop :=
  ∃ quote, planFeeTax market quote job.pair.token0 job.pair.token1 job.funds.fee0 job.funds.fee1 job.pair.quoteToken
    job.rewardQuote = .ok tax

structure PlansSwaps (market : Market) (job : RebalanceJob) (context : PrecheckContext) (tax : FeeTaxPlan) (cycle : CyclePlan) : Prop where
  taxed : PlansTax market job tax
  cycled : ∃ quote units, planCycleSwaps job.pair quote job.handling units
    (deployableFunds job context tax.fee0AfterTax tax.fee1AfterTax tax.rewardAfterTax) = .ok cycle

/-- A state a live run leaves, wherever it stops: nothing is sent yet, or what was sent is of its plan. -/
inductive LiveState (market : Market) (job : RebalanceJob) (chain : ChainFacts job.owner) (context : PrecheckContext) (state : JobState) : Prop
  | untaxed (sound : LiveSound job chain none [] state)
  | unsent (tax : FeeTaxPlan) (planned : PlansTax market job tax) (sound : LiveSound job chain (some tax.context) [] state)
  | sent (tax : FeeTaxPlan) (cycle : CyclePlan) (planned : PlansSwaps market job context tax cycle)
      (sound : LiveSound job chain (some tax.context) (tax.swaps ++ cycle.swaps) state)

/-- What a live run that swapped everything leaves: the totals are the funds and what it counts of its swaps. -/
structure CycleSent (market : Market) (job : RebalanceJob) (chain : ChainFacts job.owner) (context : PrecheckContext)
    (answer : LiveReply) (tax : FeeTaxPlan) (cycle : CyclePlan) (totals : CycleTotals) (state : JobState) : Prop where
  planned : PlansSwaps market job context tax cycle
  sound : LiveSound job chain (some tax.context) (tax.swaps ++ cycle.swaps) state
  all : AllSettled job.toJob state
  counted : (∀ intent ∈ tax.swaps ++ cycle.swaps, ∀ reply ∈ answer.swaps, Undisturbed intent reply) →
    totals = fundTotals job.handling (deployableFunds job context tax.fee0AfterTax tax.fee1AfterTax tax.rewardAfterTax) +
      rewardTotals job tax.rewardAfterTax + liveTotal job.toJob chain state.settled ∧ ∀ swap ∈ state.settled, LiveAccepted chain swap

section
variable {market : Market} {job : RebalanceJob} {chain : ChainFacts job.owner} {context : PrecheckContext} {answer : LiveReply}

theorem CycleSent.left {tax : FeeTaxPlan} {cycle : CyclePlan} {totals : CycleTotals} {state : JobState}
    (sent : CycleSent market job chain context answer tax cycle totals state) : LiveState market job chain context state :=
  .sent tax cycle sent.planned sent.sound

theorem burnLive_same {start : JobState} (burn : Option Send) : Keeps (SwapsSame job.toJob start) (burnLive job chain burn) := by
  cases burn with
  | none => exact keeps_pure ()
  | some send => exact keeps_tolerate (trackedSend_same (by decide) _ send)

theorem liveCycle_sound (fresh : FreshState job.toJob) :
    Triple (· = fresh.toJobState) (liveCycle market job chain context answer)
      (fun totals state => ∃ tax cycle, CycleSent market job chain context answer tax cycle totals state)
      (LiveState market job chain context) := by
  have start : LiveSound job chain none [] fresh.toJobState := FreshState.sound fresh
  unfold liveCycle
  apply triple_reply_at
  · intro tax taxed
    have plans : PlansTax market job tax := ⟨answer.taxQuotes, taxed⟩
    apply triple_write_at
    have noted := start.withTax (some tax.context)
    -- until the swaps are planned, nothing of them is there
    have unsent : ∀ state, SwapsSame job.toJob { fresh.toJobState with feeTax := some tax.context } state →
        LiveState market job chain context state := fun state same => .unsent tax plans (noted.same same)
    refine triple_bind (triple_weaken (burnLive_same answer.burn) (fun state here => ?_) (fun _ _ same => same) unsent) fun _ => ?_
    · rw [here]
      exact SwapsSame.refl _
    apply triple_each
    intro state same
    apply triple_reply_at
    · intro units _
      apply triple_reply_at
      · intro cycle cycled
        have planned : PlansSwaps market job context tax cycle := ⟨plans, answer.cycleQuotes, units, cycled⟩
        apply triple_write_at
        have sound := (noted.same same).plans (tax.swaps ++ cycle.swaps)
        obtain ⟨empty, unsettled, unaudited⟩ := (noted.same same).nothing
        apply triple_reply_at
        · intro _ _
          refine triple_bind (triple_weaken (liveSwaps_sound sound unaudited List.drop_zero ?_ fun other _ => empty other)
            (fun _ here => here) (fun _ _ sent => sent) fun state stopped => .sent tax cycle planned stopped) fun loop => ?_
          · intro other intent _ place
            change (livePlan (tax.swaps ++ cycle.swaps)).get? other = _
            rw [livePlan_get?, place]
            rfl
          · apply triple_pure
            rintro final ⟨finalSound, sent⟩
            have none : AllSettled job.toJob { state with swapPlan := livePlan (tax.swaps ++ cycle.swaps) } := by
              intro other row read
              change state.journal.get? _ = _ at read
              rw [empty] at read
              cases read
            refine ⟨tax, cycle, planned, finalSound, sent.rows none, fun undisturbed => ?_⟩
            obtain ⟨new, grown, total⟩ := sent.settled
            obtain ⟨effects, each⟩ := total undisturbed
            have all : final.settled = new := by
              rw [grown]
              change new ++ state.settled = new
              rw [unsettled, List.append_nil]
            rw [all]
            refine ⟨?_, each⟩
            rw [effects, (planCycleSwaps_kind cycled).1]
        · intro _ _
          exact .sent tax cycle planned sound
      · intro _ _
        exact unsent state same
    · intro _ _
      exact unsent state same
  · intro _ _
    exact .untaxed start

end

end LpTerminal.LiveSwaps
