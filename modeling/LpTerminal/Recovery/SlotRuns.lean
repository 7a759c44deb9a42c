import LpTerminal.Recovery.FeeCollection
import LpTerminal.Recovery.HoldQuote
import LpTerminal.Recovery.KeptSlots

/-!
The slots of a recovered job over its attempts. A swap that was confirmed keeps its row and its record, and no slot changes
between a tax swap and a strategy swap.
-/

namespace LpTerminal.SlotRuns

open Durable FeeTax KeptSlots Rebalance Receipts SettledSwaps Store SwapJob SwapLegs SwapReplay Trace WalletSlots

section
variable {job : Job} {chain : ChainFacts job.owner} {start state : JobState}

theorem resolveSlots_grown (landed : Hash → Bool) (intact : Intact (· = ·) job chain start) :
    Grown job chain start (resolveSlots job chain landed start) := by
  obtain ⟨after, resolved⟩ := resolveSlots_intact (fun _ => rfl) landed intact
  exact ⟨after, resolved.kept, purposesKept_plan resolved.plan⟩

theorem ensureTax_left (market : Market) (quote : QuoteFn) (fee0 fee1 : ℤ) :
    Triple (· = start) (ensureTax job market quote fee0 fee1)
      (fun tax state => TaxPlanned market tax ∧ ∃ stored, state = { start with feeTax := some stored }) (· = start) := by
  unfold ensureTax
  refine triple_read_at (triple_reply_at (fun planned ensured => ?_) fun _ _ => rfl)
  exact triple_write_at (triple_pure fun state here => ⟨(ensureFeeTaxPlan_spec ensured).1, planned.2, here⟩)

theorem taxed_slots (stored : FeeTaxContext) : SlotsSame job start { start with feeTax := some stored } := ⟨fun _ => rfl, rfl, rfl⟩

theorem capital_slots (capital : Option Capital.CapitalHarvestPlan) : SlotsSame job start { start with capital } := ⟨fun _ => rfl, rfl, rfl⟩

theorem run_grown {ι : Type} {step : JobState → ι → JobState} {holds : JobState → ι → Prop}
    (grows : ∀ state input, Intact (· = ·) job chain state → holds state input → Grown job chain state (step state input))
    (intact : Intact (· = ·) job chain start) {inputs : List ι} (along : Along step holds start inputs) :
    Grown job chain start (run step start inputs) := by
  induction inputs generalizing start with
  | nil => exact Grown.refl intact
  | cons input rest ih =>
    have first := grows start input intact along.1
    exact first.trans (ih first.intact along.2)

end

section
variable (market : Market) (job : FeeCollection.PositionJob) (chain : ChainFacts job.owner) (context : PrecheckContext)

def counter (job : Job) (state : JobState) : Nat := nextTransactionIndex state.journal job.id swapStep

/-- The attempt goes as far as a conversion that has no record yet. -/
structure ConvertsFresh (tax : FeeTaxPlan) (answer : FeeCollection.CollectReply) (state : JobState) : Prop where
  taxed : ∃ results late, (runTaxLegs job.toJob chain false (counter job.toJob state) tax.swaps answer.taxReplies).run state = (.ok results, late)
  turnover : answer.turnover = .ok ()
  handling : job.handling = .convertToQuote
  positive : 0 < FeeCollection.riskAfterTax job tax
  recordless : (FeeCollection.strategyLeg job (FeeCollection.riskAfterTax job tax)).record state = none
  quoted : ∃ quotedOut, answer.strategyReply.quote = .ok quotedOut

/-- The counter does not point at a slot of the other purpose, and one after a new tax swap not at a confirmed one. -/
structure OpenSlots (tax : FeeTaxPlan) (answer : FeeCollection.CollectReply) (state : JobState) : Prop where
  taxSlot : ∀ intent ∈ tax.swaps, (taxLeg intent false).record state = none →
    ∀ reply quotedOut, answer.taxReplies.head? = some reply → reply.quote = .ok quotedOut →
      ∀ record, state.swapPlan.get? (counter job.toJob state) = some record → record.purpose = .feeTax
  strategySlot : ConvertsFresh job chain tax answer state →
    Open job.toJob state (afterTax false tax.swaps state (counter job.toJob state)) .strategy

def CollectsOpen (state : JobState) (input : FeeCollection.Attempt) : Prop :=
  ∀ collected before tax middle,
    (FeeCollection.collectFees job chain context input.answer).run (resolveSlots job.toJob chain input.landed state) = (.ok collected, before) →
      (ensureTax job.toJob market input.answer.taxQuotes collected.1 collected.2).run before = (.ok tax, middle) →
        OpenSlots job chain tax input.answer middle

end

section
variable {market : Market} {job : FeeCollection.PositionJob} {chain : ChainFacts job.owner} {context : PrecheckContext} {start : JobState}

theorem collectFees_same (answer : FeeCollection.CollectReply) :
    Keeps (SwapsSame job.toJob start) (FeeCollection.collectFees job chain context answer) := by
  refine keeps_bind keeps_read fun before => ?_
  split
  · exact keeps_reply _
  · refine keeps_bind (trackedSend_same (by decide) _ _) fun receipt => keeps_bind (driftWallet_same _) fun _ => ?_
    exact keeps_bind keeps_read fun after => keeps_reply _

theorem strategyLeg_own (riskAmount : ℤ) : OwnPurpose (FeeCollection.strategyLeg job riskAmount) := by
  intro record reused
  simp only [FeeCollection.strategyLeg, Bool.and_eq_true, decide_eq_true_eq] at reused
  cases purpose : record.purpose with
  | strategy => rfl
  | feeTax => exact absurd purpose reused.1.1

theorem strategy_recordless {tax : FeeTaxPlan} {answer : FeeCollection.CollectReply} (open_ : OpenSlots job chain tax answer start)
    {riskAmount : ℤ} {late : JobState} (slotted : Slotted job.toJob chain (TaxTakes false tax.swaps start (counter job.toJob start)) start late)
    (planned : TaxPlanned market tax) (quoted : ∀ intent ∈ tax.swaps, (taxLeg intent false).record start = none →
      ∃ reply quotedOut, answer.taxReplies.head? = some reply ∧ reply.quote = .ok quotedOut)
    (recordless : (FeeCollection.strategyLeg job riskAmount).record late = none) :
    (FeeCollection.strategyLeg job riskAmount).record start = none := by
  cases found : (FeeCollection.strategyLeg job riskAmount).record start with
  | none => rfl
  | some record =>
    have reused := List.find?_some found
    have read := Table.get?_of_mem (List.mem_of_find?_eq_some found)
    have strategy : record.purpose = .strategy := strategyLeg_own riskAmount record reused
    by_cases taken : TaxTakes false tax.swaps start (counter job.toJob start) record.txIndex
    · obtain ⟨intent, member, same⟩ := taken
      have taxed : record.purpose = .feeTax := by
        cases own : (taxLeg intent false).record start with
        | none =>
          obtain ⟨reply, quotedOut, first, told⟩ := quoted intent member own
          have at_ : record.txIndex = counter job.toJob start := by rw [same]; unfold SwapLeg.slot; rw [own]
          exact open_.taxSlot intent member own reply quotedOut first told record (at_ ▸ read)
        | some tax =>
          have at_ : record.txIndex = tax.txIndex := by rw [same]; unfold SwapLeg.slot; rw [own]
          have same : tax = record :=
            Option.some.inj ((Table.get?_of_mem (List.mem_of_find?_eq_some own)).symm.trans (at_ ▸ read))
          rw [← same]
          exact (taxLeg_own (planned.1 intent member) false tax (List.find?_some own)).trans (planned.1 intent member).purpose
      rw [strategy] at taxed
      cases taxed
    · have still : late.swapPlan.get? record.txIndex = some record := (slotted.plan _ taken).trans read
      have none_left := List.find?_eq_none.mp recordless record (Table.get?_mem still)
      exact absurd reused none_left

theorem feeSwaps_grown (intact : Intact (· = ·) job.toJob chain start) {tax : FeeTaxPlan} (planned : TaxPlanned market tax)
    {answer : FeeCollection.CollectReply} (open_ : OpenSlots job chain tax answer start) :
    Triple (· = start) (FeeCollection.feeSwaps job chain tax answer) (fun _ => Grown job.toJob chain start) (Grown job.toJob chain start) := by
  unfold FeeCollection.feeSwaps
  refine triple_read_at ?_
  have taxes := runTaxLegs_slotted intact planned fun intent member recordless reply quotedOut first told =>
    ⟨intact.unconfirmed intact.free_next, open_.taxSlot intent member recordless reply quotedOut first told⟩
  refine triple_bind_ran (triple_weaken taxes (fun _ here => here) (fun _ _ done => done) fun _ stopped => stopped.toGrown)
    fun result late ran done => ?_
  obtain ⟨counted, slotted, quoted⟩ := done
  refine triple_reply_at (fun _ turnover => ?_) fun _ _ => slotted.toGrown
  refine triple_bind (Q := fun _ => Grown job.toJob chain start) ?_ fun _ => triple_pure fun _ grown => grown
  unfold FeeCollection.convertFees
  dsimp only
  split
  · rename_i converts
    obtain ⟨handling, positive⟩ := converts
    have fresh : (FeeCollection.strategyLeg job (FeeCollection.riskAfterTax job tax)).record late = none → ∀ quotedOut,
        answer.strategyReply.quote = .ok quotedOut → Open job.toJob late result.2 .strategy := by
      intro recordless quotedOut told
      have open_ := open_.strategySlot ⟨⟨result, late, ran⟩, turnover, handling, positive,
        strategy_recordless open_ slotted planned quoted recordless, quotedOut, told⟩
      rw [counted]
      exact slotted.open_ intact open_ (afterTax_aside planned open_)
    refine triple_bind (triple_weaken (runLeg_slotted slotted.intact (strategyLeg_own _) fresh) (fun _ here => here)
      (fun _ _ done => done.2.1) fun _ stopped => slotted.toGrown.trans stopped.toGrown) fun converted => ?_
    refine triple_bind (triple_weaken (slotted_then fun _ => allowancesAt_same (by decide) _) (fun _ sent => sent) (fun _ _ sent => sent)
      fun _ stopped => slotted.toGrown.trans stopped.toGrown) fun _ => ?_
    exact triple_pure fun _ sent => slotted.toGrown.trans sent.toGrown
  · exact triple_pure fun state here => by rw [here]; exact slotted.toGrown

theorem collection_grown (state : JobState) (input : FeeCollection.Attempt) (intact : Intact (· = ·) job.toJob chain state)
    (open_ : CollectsOpen market job chain context state input) :
    Grown job.toJob chain state (FeeCollection.afterAttempt market job chain context state input) := by
  have resolved := resolveSlots_grown input.landed intact
  refine resolved.trans ?_
  refine left_keeps (P := (· = resolveSlots job.toJob chain input.landed state)) ?_ rfl
  unfold FeeCollection.finishFeeCollection
  refine triple_bind_ran (triple_weaken (collectFees_same input.answer) (fun _ here => by rw [here]; exact SwapsSame.refl _)
    (fun _ _ same => same) fun _ same => Grown.same resolved.intact same.slots) fun collected before collects same => ?_
  refine triple_bind_ran (triple_weaken (ensureTax_left market input.answer.taxQuotes collected.1 collected.2) (fun _ here => here)
    (fun _ _ done => done) fun _ here => by rw [here]; exact Grown.same resolved.intact same.slots) fun tax middle ensures done => ?_
  obtain ⟨planned, stored, rfl⟩ := done
  have slots := same.slots.trans (taxed_slots stored)
  have ready := Grown.same resolved.intact slots
  have swaps := feeSwaps_grown ready.intact planned (open_ collected before tax _ collects ensures)
  refine triple_bind (triple_weaken swaps (fun _ here => here) (fun _ _ grown => grown) fun _ grown => ready.trans grown) fun results => ?_
  refine triple_weaken (Q := fun _ => Grown job.toJob chain _) (E := Grown job.toJob chain _) ?_ (fun _ grown => grown)
    (fun _ _ grown => ready.trans grown) fun _ grown => ready.trans grown
  exact keeps_bind (keeps_reply _) fun _ => keeps_bind keeps_read fun _ => keeps_reply _

end

section
variable {market : Market} {job : HoldQuote.HoldJob} {chain : ChainFacts job.owner} {context : PrecheckContext} {start : JobState}

theorem riskLeg_own (amountIn : ℤ) : OwnPurpose (HoldQuote.strategyLeg job amountIn) := by
  intro record reused
  simp only [HoldQuote.strategyLeg, Bool.and_eq_true, decide_eq_true_eq] at reused
  cases purpose : record.purpose with
  | strategy => rfl
  | feeTax => exact absurd purpose reused.1.1.1

theorem swapRisk_grown (intact : Intact (· = ·) job.toJob chain start) {tax : FeeTaxPlan} {next : Nat}
    (open_ : Open job.toJob start next .strategy) (answer : HoldQuote.HoldReply) :
    Triple (· = start) (HoldQuote.swapRisk job chain context tax next answer) (fun _ => Grown job.toJob chain start)
      (Grown job.toJob chain start) := by
  have stays : Grown job.toJob chain start start := Grown.refl intact
  unfold HoldQuote.swapRisk
  dsimp only
  split
  · refine triple_reply_at (fun _ _ => ?_) fun _ _ => stays
    refine triple_bind (triple_weaken (runLeg_slotted intact (riskLeg_own _) fun _ _ _ => open_) (fun _ here => here)
      (fun _ _ done => done.2.1.toGrown) fun _ stopped => stopped.toGrown) fun _ => ?_
    exact triple_pure fun _ grown => grown
  · exact triple_pure fun state here => by rw [here]; exact stays

theorem holdQuote_grown (state : JobState) (input : HoldQuote.Attempt) (intact : Intact (· = ·) job.toJob chain state) :
    Grown job.toJob chain state (HoldQuote.afterAttempt market job chain context state input) := by
  have resolved := resolveSlots_grown input.landed intact
  refine resolved.trans ?_
  refine left_keeps (P := (· = resolveSlots job.toJob chain input.landed state)) ?_ rfl
  unfold HoldQuote.finishHoldQuote
  refine triple_bind (triple_weaken (ensureTax_left market input.answer.taxQuotes job.funds.fee0 job.funds.fee1) (fun _ here => here)
    (fun _ _ done => done) fun _ here => by rw [here]; exact Grown.same resolved.intact ⟨fun _ => rfl, rfl, rfl⟩) fun tax => triple_each fun taxed done => ?_
  obtain ⟨planned, stored, rfl⟩ := done
  have ready := Grown.same resolved.intact (taxed_slots stored)
  refine triple_reply_at (fun _ _ => triple_read_at ?_) fun _ _ => ready
  dsimp only
  generalize next_is : max (nextTransactionIndex _ job.id swapStep) (afterRecords _) = next
  have past : afterRecords { resolveSlots job.toJob chain input.landed state with feeTax := some stored } ≤ next := by
    rw [← next_is]
    exact le_max_right _ _
  refine triple_bind (triple_weaken (runTaxLegs_slotted ready.intact planned fun _ _ _ _ _ _ _ => open_after ready.intact past) (fun _ here => here)
    (fun _ _ done => done) fun _ stopped => ready.trans stopped.toGrown) fun result => triple_each fun late done => ?_
  obtain ⟨counted, slotted, _⟩ := done
  have open_ : Open job.toJob { resolveSlots job.toJob chain input.landed state with feeTax := some stored }
      (afterTax true tax.swaps { resolveSlots job.toJob chain input.landed state with feeTax := some stored } next) .strategy :=
    open_after ready.intact (past.trans (le_afterTax _ _ _ _))
  have openLate : Open job.toJob late result.2 .strategy := by
    rw [counted]
    exact slotted.open_ ready.intact open_ (afterTax_aside planned open_)
  have then_ := ready.trans slotted.toGrown
  refine triple_bind (triple_weaken (swapRisk_grown slotted.intact openLate input.answer) (fun _ here => here) (fun _ _ grown => then_.trans grown)
    fun _ grown => then_.trans grown) fun swapped => triple_each fun final grown => ?_
  unfold HoldQuote.concludeHoldQuote
  have ends : ∀ after, SwapsSame job.toJob final after → Grown job.toJob chain _ after :=
    fun after same => grown.trans (Grown.same grown.intact same.slots)
  refine triple_bind (triple_weaken (allowancesAt_same (by decide) _) (fun _ here => by rw [here]; exact SwapsSame.refl _) (fun _ _ same => same)
    ends) fun _ => ?_
  refine triple_weaken (Q := fun _ => SwapsSame job.toJob final) (E := SwapsSame job.toJob final) ?_ (fun _ same => same)
    (fun _ after same => ends after same) ends
  exact keeps_bind keeps_read fun _ => keeps_reply _

end

section
variable (market : Market) (job : RebalanceJob) (chain : ChainFacts job.owner) (context : PrecheckContext)

def PlansSlots (answer : FromWallet.WalletReply) (start : JobState) (tax : FeeTaxPlan) : Prop :=
  ∃ stored totals units cycle, WalletRun.Taxed market job answer.taxQuotes start tax stored ∧
    applyExecutedSwaps job.toJob chain (deployableFunds job context tax.fee0AfterTax tax.fee1AfterTax tax.rewardAfterTax)
      { start with feeTax := some stored } = .ok totals ∧
    FromWallet.assertCovered job context { start with feeTax := some stored } totals tax.rewardAfterTax answer.otherAllocations = .ok () ∧
    answer.position = .ok () ∧ answer.units = .ok units ∧
    planCycleSwaps job.pair answer.cycleQuotes job.handling units (FromWallet.remainingFunds totals) = .ok cycle ∧ answer.limits = .ok ()

def PlansOpen (state : JobState) (input : FromWallet.Attempt) : Prop :=
  ∀ tax, PlansSlots market job chain context input.answer (resolveSlots job.toJob chain input.landed state) tax →
    ∀ intent ∈ tax.swaps, (taxLeg intent false).confirmed job.toJob chain (resolveSlots job.toJob chain input.landed state) = none

end

section
variable {market : Market} {job : RebalanceJob} {chain : ChainFacts job.owner} {context : PrecheckContext} {start : JobState}
variable {tax : FeeTaxPlan} {cycle : List SwapIntent}

theorem sendSwap_slotted {swap : FromWallet.SlottedSwap} (intact : Intact (· = ·) job.toJob chain start) (free : Free start swap.txIndex)
    (approvalTx : Nat) (answer : FromWallet.SwapReply) :
    Triple (· = start) (FromWallet.sendSwap job chain approvalTx swap answer) (fun _ => Slotted job.toJob chain (· = swap.txIndex) start)
      (Slotted job.toJob chain (· = swap.txIndex) start) := by
  have stays : ∀ state, SwapsSame job.toJob start state → Slotted job.toJob chain (· = swap.txIndex) start state :=
    fun state same => Slotted.same intact same.slots
  unfold FromWallet.sendSwap
  refine triple_reply_at (fun approvals _ => ?_) fun _ _ => stays start (SwapsSame.refl start)
  refine triple_bind (triple_weaken (sendAllowances_same (by decide) _ _) (fun _ here => by rw [here]; exact SwapsSame.refl _)
    (fun _ _ same => same) stays) fun _ => triple_bind (Q := fun _ state => SwapsSame job.toJob start state)
      (triple_reply (fun _ _ same _ => same) fun state _ same _ => stays state same) fun prepared => ?_
  refine triple_each fun before same => triple_read_at ?_
  cases read : before.swapPlan.get? swap.txIndex with
  | none => exact triple_fail fun state here => by rw [here]; exact stays before same
  | some record =>
    have still := intact.same same
    have freeStill : Free before swap.txIndex := free.same same
    have written := Slotted.refreshed still read freeStill prepared
    refine triple_write_at (triple_read_at ?_)
    -- writing the record settles nothing, so the slot is still free when the swap is sent
    refine triple_bind (triple_weaken (sendRecoverySwap_slotted written.intact freeStill swap.intent prepared answer.send)
      (fun _ here => here) (fun _ _ sent => (stays before same).trans (written.trans sent))
      fun _ stopped => (stays before same).trans (written.trans stopped)) fun _ => ?_
    refine triple_bind (slotted_then fun _ => driftWallet_same _) fun _ => triple_bind keeps_read fun after => ?_
    refine triple_bind (keeps_reply _) fun _ => triple_bind (keeps_reply _) fun _ => ?_
    exact triple_bind (slotted_then fun _ => sendAllowances_same (by decide) _ _) fun _ => triple_pure fun _ sent => sent

theorem sendPending_slotted {pending : List FromWallet.SlottedSwap} (intact : Intact (· = ·) job.toJob chain start)
    (distinct : DistinctSlots pending) (free : ∀ swap ∈ pending, Free start swap.txIndex) (approvalTx : Nat) (totals : CycleTotals)
    (answers : List FromWallet.SwapReply) :
    Triple (· = start) (FromWallet.sendPending job chain approvalTx totals pending answers) (fun _ => Grown job.toJob chain start)
      (Grown job.toJob chain start) := by
  have stays : Grown job.toJob chain start start := Grown.refl intact
  induction pending generalizing start approvalTx totals answers with
  | nil => exact triple_pure fun state here => by rw [here]; exact stays
  | cons swap rest ih =>
    cases answers with
    | nil => exact triple_fail fun state here => by rw [here]; exact stays
    | cons answer later =>
      obtain ⟨ahead, distinct⟩ := List.pairwise_cons.mp distinct
      obtain ⟨first, others⟩ := List.forall_mem_cons.mp free
      refine triple_bind (triple_weaken (sendSwap_slotted intact first approvalTx answer) (fun _ here => here) (fun _ _ sent => sent)
        fun _ stopped => stopped.toGrown) fun result => triple_each fun middle sent => ?_
      have freeThen : ∀ other ∈ rest, Free middle other.txIndex := fun other member =>
        sent.free (others other member) fun same => ahead other member same.symm
      exact triple_weaken (ih sent.intact distinct freeThen result.2 (totals + result.1) later
        (Grown.refl sent.intact)) (fun _ here => here) (fun _ _ grown => sent.toGrown.trans grown)
        fun _ grown => sent.toGrown.trans grown

theorem planned_purpose (planned : TaxPlanned market tax) (kind : ∀ swap ∈ cycle, StrategyKind job.pair job.handling swap)
    {record old : SwapPlanRecord} (among : record ∈ (FromWallet.planSlots job.toJob start tax.swaps cycle).records)
    (read : start.swapPlan.get? record.txIndex = some old) : record.purpose = old.purpose := by
  obtain ⟨taxes, strategies, _, taxIntents, strategyIntents⟩ := @planSlots_spec job.toJob start tax.swaps cycle planned.2
  have stored := Table.get?_mem read
  have own : old.txIndex = record.txIndex := Table.get?_key read
  obtain ⟨slot, member, rfl⟩ := List.mem_map.mp among
  rcases List.mem_append.mp member with inTaxes | inStrategies
  · have taxSwap := planned.1 slot.intent (taxIntents ▸ List.mem_map_of_mem inTaxes)
    rcases taxes slot inTaxes with ⟨existing, found, at_⟩ | fresh
    · have same : existing = old := Table.eq_of_key (List.mem_of_find?_eq_some found) stored (at_.trans own.symm)
      have reused := taxLeg_own taxSwap false existing (List.find?_some found)
      rw [same] at reused
      exact reused.symm
    · exact absurd (own.trans fresh) (below_fresh stored).ne
  · have strategy : slot.intent.purpose = .strategy := (kind slot.intent (strategyIntents ▸ List.mem_map_of_mem inStrategies)).purpose
    rcases strategies slot inStrategies with ⟨existing, reusable, at_⟩ | fresh
    · have kept := List.mem_filter.mp reusable
      have same : existing = old := Table.eq_of_key kept.1 stored (at_.trans own.symm)
      simp only [Bool.and_eq_true, decide_eq_true_eq, same] at kept
      change slot.intent.purpose = old.purpose
      rw [strategy]
      cases purpose : old.purpose with
      | strategy => rfl
      | feeTax => exact absurd purpose kept.2.1
    · exact absurd own ((below_fresh stored).trans_le fresh).ne

theorem written_grown (intact : Intact (· = ·) job.toJob chain start) (planned : TaxPlanned market tax)
    (kind : ∀ swap ∈ cycle, StrategyKind job.pair job.handling swap) (open_ : WalletRun.TaxOpen start tax) :
    Grown job.toJob chain start (written start (FromWallet.planSlots job.toJob start tax.swaps cycle).records) := by
  obtain ⟨_, _, distinct, _⟩ := @planSlots_spec job.toJob start tax.swaps cycle planned.2
  refine ⟨written_intact intact (WalletRun.rewrites_open intact planned open_), fun _ member => member, fun txIndex old read => ?_⟩
  by_cases given : ∃ record ∈ (FromWallet.planSlots job.toJob start tax.swaps cycle).records, txIndex = record.txIndex
  · obtain ⟨record, among, rfl⟩ := given
    have apart : (FromWallet.planSlots job.toJob start tax.swaps cycle).records.Pairwise fun first second => first.txIndex ≠ second.txIndex :=
      List.pairwise_map.mpr distinct
    exact ⟨record, Table.get?_foldl_put_of_mem apart among, planned_purpose planned kind among read⟩
  · exact ⟨old, (Table.get?_foldl_put_other fun record among same => given ⟨record, among, same⟩).trans read, rfl⟩

theorem cycleSwaps_grown (intact : Intact (· = ·) job.toJob chain start) (planned : TaxPlanned market tax) {totals : CycleTotals}
    {answer : FromWallet.WalletReply}
    (open_ : ∀ units cycle, answer.units = .ok units →
      planCycleSwaps job.pair answer.cycleQuotes job.handling units (FromWallet.remainingFunds totals) = .ok cycle → answer.limits = .ok () →
        WalletRun.TaxOpen start tax) :
    Triple (· = start) (FromWallet.cycleSwaps job chain tax totals answer) (fun _ => Grown job.toJob chain start)
      (Grown job.toJob chain start) := by
  have stays : Grown job.toJob chain start start := Grown.refl intact
  unfold FromWallet.cycleSwaps
  refine triple_reply_at (fun units measured => triple_reply_at (fun plan made => triple_reply_at (fun _ limited => ?_) fun _ _ => stays)
    fun _ _ => stays) fun _ _ => stays
  refine triple_read_at (triple_write_at ?_)
  have grown := written_grown intact planned (planCycleSwaps_kind made).2 (open_ units plan measured made limited)
  refine triple_reply_at (fun _ _ => ?_) fun _ _ => grown
  obtain ⟨_, _, distinct, _⟩ := @planSlots_spec job.toJob start tax.swaps plan.swaps planned.2
  have free := @pending_free _ job.toJob chain start tax.swaps plan.swaps intact planned.2
  exact triple_weaken (sendPending_slotted grown.intact (distinct.sublist (pending_sublist _)) free _ _ _) (fun _ here => here)
    (fun _ _ sent => grown.trans sent) fun _ sent => grown.trans sent

theorem swapPhase_grown {answer : FromWallet.WalletReply} (intact : Intact (· = ·) job.toJob chain start)
    (open_ : ∀ tax, PlansSlots market job chain context answer start tax → ∀ intent ∈ tax.swaps,
      (taxLeg intent false).confirmed job.toJob chain start = none) :
    Triple (· = start) (FromWallet.swapPhase market job chain context answer) (fun _ => Grown job.toJob chain start)
      (Grown job.toJob chain start) := by
  have stays : ∀ state, SlotsSame job.toJob start state → Grown job.toJob chain start state :=
    fun state same => Grown.same intact same
  unfold FromWallet.swapPhase
  refine triple_bind (triple_weaken (WalletRun.ensureTax_run answer.taxQuotes) (fun _ here => here) (fun _ _ ran => ran)
    fun state here => by rw [here]; exact stays start ⟨fun _ => rfl, rfl, rfl⟩) fun tax => triple_each fun state ran => ?_
  obtain ⟨stored, taxed, rfl⟩ := ran
  have ready := stays _ (taxed_slots stored)
  refine triple_read_at (triple_reply_at (fun totals replayed => triple_reply_at (fun _ covered => triple_reply_at (fun _ positioned => ?_)
    fun _ _ => ready) fun _ _ => ready) fun _ _ => ready)
  have still : ∀ state, SwapsSame job.toJob { start with feeTax := some stored } state → Grown job.toJob chain start state :=
    fun state same => stays state ((taxed_slots stored).trans same.slots)
  refine triple_bind (triple_weaken (WalletRun.burnEmpty_same answer.burn) (fun _ here => by rw [here]; exact SwapsSame.refl _)
    (fun _ _ same => same) still) fun _ => triple_each fun middle same => ?_
  have open' : ∀ units cycle, answer.units = .ok units →
      planCycleSwaps job.pair answer.cycleQuotes job.handling units (FromWallet.remainingFunds totals) = .ok cycle → answer.limits = .ok () →
        WalletRun.TaxOpen middle tax := by
    intro units cycle measured made limited intent member record found
    have unconfirmed := open_ tax ⟨stored, totals, units, cycle, taxed, replayed, covered, positioned, measured, made, limited⟩ intent member
    have before : (taxLeg intent false).record start = some record := by
      unfold SwapLeg.record at found ⊢
      rw [← found, same.plan]
    have free : Free { start with feeTax := some stored } record.txIndex := free_record intact before unconfirmed
    exact free.same same
  exact triple_weaken (cycleSwaps_grown (ready.intact.same same) (ensureFeeTaxPlan_spec taxed).1 open') (fun _ here => here)
    (fun _ _ grown => (still middle same).trans grown) fun _ grown => (still middle same).trans grown

theorem wallet_grown {value : Hash → Nat} (state : JobState) (input : FromWallet.Attempt) (intact : Intact (· = ·) job.toJob chain state)
    (open_ : PlansOpen market job chain context state input) :
    Grown job.toJob chain state (FromWallet.afterAttempt market job chain context value state input) := by
  have resolved := resolveSlots_grown input.landed intact
  refine resolved.trans (left_keeps (P := (· = resolveSlots job.toJob chain input.landed state)) ?_ rfl)
  have same : ∀ {before after}, Grown job.toJob chain (resolveSlots job.toJob chain input.landed state) before →
      SlotsSame job.toJob before after → Grown job.toJob chain (resolveSlots job.toJob chain input.landed state) after :=
    fun grown same => grown.trans (Grown.same grown.intact same)
  unfold FromWallet.finishFromWallet
  refine triple_bind (swapPhase_grown resolved.intact open_) fun totals => triple_each fun swapped grown => ?_
  refine triple_bind (Q := fun _ => Grown job.toJob chain (resolveSlots job.toJob chain input.landed state))
    (triple_weaken (WalletRun.mintPhase_same totals input.answer) (fun _ here => here) ?_ ?_) fun _ => triple_each fun minted grown => ?_
  · rintro _ after ⟨capital, _, _, left⟩
    exact same grown ((capital_slots (some capital)).trans left.slots)
  · rintro after (here | ⟨capital, _, _, left⟩)
    · rw [here]
      exact grown
    · exact same grown ((capital_slots (some capital)).trans left.slots)
  · exact triple_weaken (WalletRun.commitMint_same context value input.answer.minted input.answer.otherAllocations) (fun _ here => here)
      (fun _ _ here => by rw [here]; exact grown) fun _ here => by rw [here]; exact grown

end

/-- What a later state of the job still holds: every swap that was ever confirmed has its row, its record and a slot of its own,
and no slot turned from a tax swap's to a strategy swap's or back. -/
structure SlotsKept (job : Job) (start state : JobState) : Prop where
  confirmed : ∀ swap ∈ start.settled, swap ∈ state.settled
  rows : ∀ txIndex row, state.journal.get? (swapSlot job txIndex) = some row → row.state = .confirmed →
    ∃ swap ∈ state.settled, swap.row = row
  untouched : ∀ swap ∈ state.settled, state.journal.get? (swapSlot job swap.row.txIndex) = some swap.row ∧
    state.swapPlan.get? swap.row.txIndex = some swap.record
  apart : state.settled.Pairwise fun first second => first.row.txIndex ≠ second.row.txIndex
  purposes : PurposesKept start state

theorem slotsKept_of_grown {job : Job} {chain : ChainFacts job.owner} {start state : JobState} (grown : Grown job chain start state) :
    SlotsKept job start state where
  confirmed := grown.kept
  rows := grown.intact.complete
  untouched swap member := by
    have held := grown.intact.held swap member
    obtain ⟨record, read, same⟩ := held.record
    exact ⟨held.row, same ▸ read⟩
  apart := grown.intact.apart
  purposes := grown.purposes

theorem run_kept {ι : Type} {job : Job} {chain : ChainFacts job.owner} {step : JobState → ι → JobState} {holds : JobState → ι → Prop}
    (grows : ∀ state input, Intact (· = ·) job chain state → holds state input → Grown job chain state (step state input))
    {start : JobState} (intact : Intact (· = ·) job chain start) {earlier later : List ι} (along : Along step holds start (earlier ++ later)) :
    SlotsKept job (run step start earlier) (run step start (earlier ++ later)) := by
  obtain ⟨first, second⟩ := along_append.mp along
  rw [run_append]
  exact slotsKept_of_grown (run_grown grows (run_grown grows intact first).intact second)

/-- Over every run of attempts of the three recoveries: hold-quote jobs keep the slots, fee collections where their counter points
at open slots, and rebalances where no confirmed tax swap is planned again. -/
theorem slots_kept (market : Market) (context : PrecheckContext) (value : Hash → Nat) :
    (∀ (job : FeeCollection.PositionJob) (chain : ChainFacts job.owner) (start : JobState) (earlier later : List FeeCollection.Attempt),
      Intact (· = ·) job.toJob chain start →
        Along (FeeCollection.afterAttempt market job chain context) (CollectsOpen market job chain context) start (earlier ++ later) →
          SlotsKept job.toJob (run (FeeCollection.afterAttempt market job chain context) start earlier)
            (run (FeeCollection.afterAttempt market job chain context) start (earlier ++ later))) ∧
    (∀ (job : HoldQuote.HoldJob) (chain : ChainFacts job.owner) (start : JobState) (earlier later : List HoldQuote.Attempt),
      Intact (· = ·) job.toJob chain start →
        SlotsKept job.toJob (run (HoldQuote.afterAttempt market job chain context) start earlier)
          (run (HoldQuote.afterAttempt market job chain context) start (earlier ++ later))) ∧
    (∀ (job : RebalanceJob) (chain : ChainFacts job.owner) (start : JobState) (earlier later : List FromWallet.Attempt),
      Intact (· = ·) job.toJob chain start →
        Along (FromWallet.afterAttempt market job chain context value) (PlansOpen market job chain context) start (earlier ++ later) →
          SlotsKept job.toJob (run (FromWallet.afterAttempt market job chain context value) start earlier)
            (run (FromWallet.afterAttempt market job chain context value) start (earlier ++ later))) := by
  refine ⟨fun job chain start earlier later intact along => run_kept collection_grown intact along,
    fun job chain start earlier later intact => ?_, fun job chain start earlier later intact along => run_kept wallet_grown intact along⟩
  have always : Along (HoldQuote.afterAttempt market job chain context) (fun _ _ => True) start (earlier ++ later) :=
    along_of_forall (fun _ _ => trivial) _ _
  exact run_kept (fun state input intact _ => holdQuote_grown state input intact) intact always

theorem open_fresh {job : Job} {start state : JobState} (same : SlotsSame job start state) (plan : start.swapPlan = Table.empty)
    (journal : start.journal = Journal.empty) (txIndex : Nat) (purpose : SwapPurpose) : Open job state txIndex purpose where
  unconfirmed row read := by
    rw [same.rows, journal] at read
    cases read
  purpose record read := by
    rw [same.plan, plan] at read
    cases read

theorem collectsOpen_fresh {market : Market} {job : FeeCollection.PositionJob} {chain : ChainFacts job.owner} {context : PrecheckContext}
    {start : JobState} (plan : start.swapPlan = Table.empty) (journal : start.journal = Journal.empty) (input : FeeCollection.Attempt) :
    CollectsOpen market job chain context start input := by
  have resolved : resolveSlots job.toJob chain input.landed start = start := by
    unfold resolveSlots
    rw [journal]
    rfl
  intro collected before tax middle collects ensures
  rw [resolved] at collects
  have early := @collectFees_same job chain context start input.answer start (SwapsSame.refl start)
  rw [collects] at early
  have late := @ensureTax_left job.toJob before market input.answer.taxQuotes collected.1 collected.2 before rfl
  rw [ensures] at late
  obtain ⟨_, stored, rfl⟩ := late
  have open_ := open_fresh (early.slots.trans (taxed_slots stored)) plan journal
  exact ⟨fun _ _ _ _ _ _ _ => (open_ _ _).purpose, fun _ => open_ _ _⟩

def taxingMarket : Market where
  settlementToken := 99
  wrappedNative := 98
  threshold := 0
  notNative := HoldQuote.exampleMarket.notNative
  nonneg := by decide

def convertingJob : FeeCollection.PositionJob := { FeeCollection.exampleJob 5 (by decide) with handling := .convertToQuote }

def resumedChain : ChainFacts 1 :=
  .ofEntries 1 (fun hash => if hash = 2 then .reverted else .success) (fun _ => 0)
    (fun
      | 1 => [⟨5, .transfer 50 1 100⟩, ⟨7, .transfer 50 1 30⟩]
      | 3 => [⟨5, .transfer 1 60 13⟩, ⟨99, .transfer 60 1 13⟩]
      | 4 => [⟨7, .transfer 1 60 30⟩, ⟨5, .transfer 60 1 30⟩]
      | _ => [])
    fun _ => 0

def sendOf (hash : Hash) : Send := { idleSend with outcome := .mined hash (.ok ()) }

def swapReply (amount : Nat) (positive : (0 : ℤ) < amount) (hash : Hash) : LegReply where
  quote := .ok amount
  approvals := .ok []
  prepared := .ok ⟨amount, amount, positive, le_rfl⟩
  send := sendOf hash
  drift _ := 0
  revokes := .ok []

def collectWith (taxHash : Hash) : FeeCollection.Attempt where
  landed _ := false
  answer :=
    { collect := sendOf 1, collectDrift := fun _ => 0, taxQuotes := fun _ _ _ amount => .ok amount.toNat
      taxReplies := [swapReply 13 (by decide) taxHash], turnover := .ok (), strategyReply := swapReply 30 (by decide) 4
      cleanup := .ok [], position := .ok (), otherAllocations := fun _ => 0 }

def collected (attempts : List FeeCollection.Attempt) : JobState :=
  run (FeeCollection.afterAttempt taxingMarket convertingJob resumedChain FeeCollection.exampleContext) FeeCollection.exampleStart attempts

def confirmations (state : JobState) : List (Nat × SwapPurpose × Option Hash) :=
  state.settled.map fun swap => (swap.row.txIndex, swap.record.purpose, swap.row.txHash)

theorem intact_fresh {job : Job} {chain : ChainFacts job.owner} : Intact (· = ·) job chain FeeCollection.exampleStart where
  held _ member := absurd member List.not_mem_nil
  apart := List.Pairwise.nil
  complete _ _ read := by cases read
  planned _ _ read := by cases read

/-- Both swaps of one attempt are confirmed, each in its own slot. -/
theorem slots_kept_first : SlotsKept convertingJob.toJob FeeCollection.exampleStart (collected [collectWith 3]) ∧
    confirmations (collected [collectWith 3]) = [(1, .strategy, some 4), (0, .feeTax, some 3)] := by
  refine ⟨?_, by decide⟩
  exact (slots_kept taxingMarket FeeCollection.exampleContext fun _ => 0).1 convertingJob resumedChain FeeCollection.exampleStart []
    [collectWith 3] intact_fresh ⟨collectsOpen_fresh rfl rfl _, trivial⟩

/-- The tax swap reverts, is resumed in its slot and confirmed there, and the strategy swap takes the same slot. -/
theorem tax_slot_taken : confirmations (collected [collectWith 2, collectWith 3]) = [(0, .strategy, some 4), (0, .feeTax, some 3)] ∧
    ((collected [collectWith 2, collectWith 3]).journal.get? (swapSlot convertingJob.toJob 0)).map JobTransaction.txHash = some (some 4) ∧
    ¬ SlotsKept convertingJob.toJob FeeCollection.exampleStart (collected [collectWith 2, collectWith 3]) := by
  have both : confirmations (collected [collectWith 2, collectWith 3]) = [(0, .strategy, some 4), (0, .feeTax, some 3)] := by decide
  refine ⟨both, by decide, fun kept => ?_⟩
  have apart : (confirmations (collected [collectWith 2, collectWith 3])).Pairwise fun first second => first.1 ≠ second.1 :=
    List.pairwise_map.mpr kept.apart
  rw [both] at apart
  exact absurd apart (by decide)

end LpTerminal.SlotRuns
