import LpTerminal.Recovery.LiveCommit

/-!
The replay after any attempts: what the last loop counted is what the records, the audits and the receipts add up to.
-/

namespace LpTerminal.ReplayAgreement

open Capital Durable Fallible FeeTax FromWallet LiveSwaps Rebalance Receipts SettledSwaps Store SwapJob SwapLegs SwapReplay Trace WalletRun WalletSlots

section
variable {market : Market} {job : RebalanceJob} {chain : ChainFacts job.owner} {context : PrecheckContext} {state : JobState}

theorem Intact.weaken {R : SwapPlanRecord → SwapPlanRecord → Prop} {job : Job} {chain : ChainFacts job.owner} (intact : Intact (· = ·) job chain state)
    (reflexive : ∀ record, R record record) : Intact R job chain state := by
  refine ⟨fun swap member => ?_, intact.apart, intact.complete, intact.planned⟩
  obtain ⟨slot, confirmed, succeeded, index, row, record, read, same⟩ := intact.held swap member
  exact ⟨slot, confirmed, succeeded, index, row, record, read, same ▸ reflexive _⟩

theorem LiveSound.handed {stored : Option FeeTaxContext} {swaps : List SwapIntent} (sound : LiveSound job chain stored swaps state)
    (good : ∀ intent ∈ swaps, ∀ txIndex, GoodRecord market job.toJob (planRecord txIndex intent))
    (within : ∀ tax, stored = some tax → tax.Within job.funds.fee0 job.funds.fee1 job.rewardQuote) : Sound SameSwap market job chain state := by
  refine ⟨Intact.weaken sound.intact sameSwap_refl, fun record member => ?_, fun audit member => ?_, fun tax taxed => ?_⟩
  · obtain ⟨intent, place, same⟩ := sound.listed record member
    exact (good intent (List.mem_of_getElem? place) record.txIndex).same same.symm
  · obtain ⟨swap, settled, hashed, same⟩ := sound.audited audit member
    have alike := congrArg swapOf same
    exact ⟨swap, settled, hashed, alike⟩
  · rw [sound.taxed] at taxed
    exact within tax taxed

theorem LiveState.handed (left : LiveState market job chain context state) : Sound SameSwap market job chain state := by
  have within : ∀ tax, PlansTax market job tax → ∀ stored, some tax.context = some stored →
      stored.Within job.funds.fee0 job.funds.fee1 job.rewardQuote := by
    rintro tax ⟨quote, planned⟩ stored same
    cases same
    exact planFeeTax_within planned
  cases left with
  | untaxed sound => exact LiveSound.handed sound (fun _ member => absurd member List.not_mem_nil) fun _ none => nomatch none
  | unsent tax planned sound => exact LiveSound.handed sound (fun _ member => absurd member List.not_mem_nil) (within tax planned)
  | sent tax cycle planned sound =>
    refine LiveSound.handed sound (fun intent member txIndex => ?_) (within tax planned.taxed)
    obtain ⟨⟨_, taxed⟩, _, _, cycled⟩ := planned
    rcases List.mem_append.mp member with inTax | inCycle
    · exact good_tax ((planFeeTax_planned taxed).1 intent inTax) txIndex
    · exact good_strategy ((planCycleSwaps_kind cycled).2 intent inCycle) txIndex

end

section
variable {R : SwapPlanRecord → SwapPlanRecord → Prop} {job : Job} {chain : ChainFacts job.owner} {state start : JobState}

theorem replayedSwap_same {row : JobTransaction} (plan : state.swapPlan.get? row.txIndex = start.swapPlan.get? row.txIndex)
    (audits : state.executedSwaps = start.executedSwaps) : replayedSwap job state row = replayedSwap job start row := by
  unfold replayedSwap auditOf
  rw [plan, audits]

theorem replay_same (intact : Intact R job chain start) (same : SwapsSame job start state) :
    replayedSwaps job state = replayedSwaps job start ∧
      ∀ funds, applyExecutedSwaps job chain funds state = applyExecutedSwaps job chain funds start := by
  have each : replayedSwap job state = replayedSwap job start :=
    funext fun row => replayedSwap_same (by rw [same.plan]) same.audits
  unfold replayedSwaps applyExecutedSwaps
  rw [confirmedSwaps_same intact same, each]
  refine ⟨rfl, fun funds => ?_⟩
  have step : replaySwap job chain state = replaySwap job chain start := by
    funext totals row
    unfold replaySwap
    rw [each]
  rw [step]

end

/-- A replay of the transaction of a settled swap, as the swap it was but for the quote. -/
structure ReplaysAs (swap : SettledSwap) (replay : ReplayedSwap) : Prop where
  hash : replay.hash = swap.row.txHash.getD 0
  intent : swapOf replay.intent = swapOf (plannedIntent swap.record)

/-- Every confirmed tax swap gained the minimum its record asks for now, and in the order of the slots every strategy swap
finds what it spent. -/
structure Replayable (job : RebalanceJob) (chain : ChainFacts job.owner) (context : PrecheckContext) (state : JobState) : Prop where
  covered : ∀ replay ∈ replayedSwaps job.toJob state, replay.intent.purpose = .feeTax → replay.minOut ≤ replay.gained job.toJob chain
  funded : FundedInOrder job.toJob chain (fundTotals job.handling (taxedFunds job context state.feeTax)) (replayedSwaps job.toJob state)

section
variable {market : Market} {job : RebalanceJob} {chain : ChainFacts job.owner} {state start : JobState} {swap : SettledSwap}
variable {replay other : ReplayedSwap}

theorem ReplaysAs.effect (same : ReplaysAs swap replay) : replay.effect job.toJob chain = settledEffect job.toJob chain swap := by
  obtain ⟨hash, intent, minOut⟩ := replay
  obtain ⟨rfl, sameIntent⟩ := same
  change (ReplayedSwap.mk (swap.row.txHash.getD 0) (swapOf intent) 0).effect job.toJob chain = _
  rw [show swapOf intent = swapOf (plannedIntent swap.record) from sameIntent]
  rfl

theorem ReplaysAs.acceptable (first : ReplaysAs swap replay) (second : ReplaysAs swap other) (acceptable : @ReplayedSwap.Acceptable job.toJob chain replay)
    (covered : other.minOut ≤ other.gained job.toJob chain) : @ReplayedSwap.Acceptable job.toJob chain other := by
  obtain ⟨hash, intent, minOut⟩ := replay
  obtain ⟨otherHash, otherIntent, otherMin⟩ := other
  obtain ⟨rfl, sameIntent⟩ := first
  obtain ⟨rfl, sameOther⟩ := second
  obtain ⟨succeeded, accepted⟩ := acceptable
  refine ⟨succeeded, ?_⟩
  have alike : swapOf otherIntent = swapOf intent := sameOther.trans sameIntent.symm
  have kept : Accepts (swapOf otherIntent) ((ReplayedSwap.mk (swap.row.txHash.getD 0) (swapOf otherIntent) 0).spent job.toJob chain)
      ((ReplayedSwap.mk (swap.row.txHash.getD 0) (swapOf otherIntent) 0).gained job.toJob chain) minOut := by
    rw [alike]
    exact accepted
  obtain ⟨positive, principal, fee, parts, spends, within, _⟩ := kept
  exact ⟨positive, principal, fee, parts, spends, within, covered⟩

section

variable (sound : Sound SameSwap market job chain state)
include sound

theorem Sound.found (member : swap ∈ state.settled) :
    ∃ replay, replayedSwap job.toJob state swap.row = some replay ∧ ReplaysAs swap replay := by
  have held := sound.intact.held swap member
  obtain ⟨hash, hashed, _⟩ := held.succeeded
  obtain ⟨record, read, same⟩ := held.record
  unfold replayedSwap
  rw [hashed, read]
  refine ⟨_, rfl, by rw [hashed]; rfl, ?_⟩
  unfold replayedAs
  cases found : auditOf state hash with
  | none => exact same.symm
  | some audit =>
    obtain ⟨owner, among, ownerHash, alike⟩ := sound.audited audit (List.mem_of_find?_eq_some found)
    have own : audit.txHash = hash := by simpa using List.find?_some found
    have this : owner = swap := settled_hash sound.intact among member (by rw [ownerHash, hashed, own])
    subst this
    exact alike

theorem Sound.mem_replayed :
    replay ∈ replayedSwaps job.toJob state ↔ ∃ swap ∈ state.settled, replayedSwap job.toJob state swap.row = some replay := by
  unfold replayedSwaps
  rw [List.mem_filterMap]
  constructor
  · rintro ⟨row, member, found⟩
    obtain ⟨swap, settled, rfl⟩ := (mem_confirmedSwaps sound.intact).mp member
    exact ⟨swap, settled, found⟩
  · rintro ⟨swap, settled, found⟩
    exact ⟨swap.row, (mem_confirmedSwaps sound.intact).mpr ⟨swap, settled, rfl⟩, found⟩

theorem Sound.recorded : Recorded job.toJob state := by
  intro row member
  obtain ⟨swap, settled, rfl⟩ := (mem_confirmedSwaps sound.intact).mp member
  obtain ⟨replay, found, _⟩ := Sound.found sound settled
  rw [found]
  rfl

theorem Sound.replayed_total :
    ((replayedSwaps job.toJob state).map fun swap => swap.effect job.toJob chain).sum = settledTotal job.toJob chain state.settled := by
  have each : ∀ swaps : List SettledSwap, (∀ swap ∈ swaps, swap ∈ state.settled) →
      ((swaps.map SettledSwap.row).filterMap (replayedSwap job.toJob state)).map (fun swap => swap.effect job.toJob chain) =
        swaps.map (settledEffect job.toJob chain) := by
    intro swaps
    induction swaps with
    | nil => exact fun _ => rfl
    | cons swap rest ih =>
      intro among
      obtain ⟨first, among⟩ := List.forall_mem_cons.mp among
      obtain ⟨replay, found, same⟩ := Sound.found sound first
      rw [List.map_cons, List.filterMap_cons_some found, List.map_cons, List.map_cons, ih among, same.effect]
  unfold replayedSwaps settledTotal
  rw [(((confirmedSwaps_perm sound.intact).filterMap _).map _).sum_eq, each state.settled fun _ member => member]

theorem Sound.good (member : swap ∈ state.settled) : GoodRecord market job.toJob swap.record := by
  obtain ⟨record, read, same⟩ := (sound.intact.held swap member).record
  exact (sound.records record (Table.get?_mem read)).same same.symm

end

theorem ReplaysAs.reinvested (same : ReplaysAs swap replay) (good : GoodRecord market job.toJob swap.record)
    (acceptable : @ReplayedSwap.Acceptable job.toJob chain replay) (reinvest : job.handling = .reinvest) :
    (replay.effect job.toJob chain).held0 = 0 ∧ (replay.effect job.toJob chain).held1 = 0 := by
  have purpose : replay.intent.purpose = swap.record.purpose := congrArg SwapIntent.purpose same.intent
  have fee : replay.intent.feeIn = swap.record.feeIn := congrArg SwapIntent.feeIn same.intent
  unfold ReplayedSwap.effect executionEffect
  rw [reinvest]
  cases kind : replay.intent.purpose with
  | feeTax =>
    dsimp only
    split
    · exact ⟨rfl, rfl⟩
    · exact ⟨rfl, rfl⟩
  | strategy =>
    have noFee : replay.intent.feeIn = 0 := fee.trans (good.reinvested reinvest (purpose.symm.trans kind))
    obtain ⟨spent, out⟩ := executionOf_principal acceptable.accepted noFee
    dsimp only
    rw [spent, out]
    split
    · exact ⟨rfl, rfl⟩
    · exact ⟨rfl, rfl⟩

theorem sum_held {effects : List CycleTotals} (none : ∀ effect ∈ effects, effect.held0 = 0 ∧ effect.held1 = 0) :
    effects.sum.held0 = 0 ∧ effects.sum.held1 = 0 := by
  induction effects with
  | nil => exact ⟨rfl, rfl⟩
  | cons effect rest ih =>
    obtain ⟨⟨first, second⟩, none⟩ := List.forall_mem_cons.mp none
    obtain ⟨rest0, rest1⟩ := ih none
    rw [List.sum_cons, CycleTotals.add_held0, CycleTotals.add_held1, first, second, rest0, rest1]
    exact ⟨rfl, rfl⟩

theorem Sound.remaining (sound : Sound SameSwap market job chain state) {funds : CycleFunds} {base : CycleTotals}
    (replayed : applyExecutedSwaps job.toJob chain funds state = .ok base) :
    fundTotals job.handling (remainingFunds base) = base := by
  obtain ⟨each, _, total⟩ := (applyExecutedSwaps_ok (Sound.recorded sound)).mp replayed
  unfold fundTotals remainingFunds
  split
  · rename_i reinvest
    have untouched : ∀ effect ∈ (replayedSwaps job.toJob state).map fun swap => swap.effect job.toJob chain,
        effect.held0 = 0 ∧ effect.held1 = 0 := by
      intro effect member
      obtain ⟨replay, among, rfl⟩ := List.mem_map.mp member
      obtain ⟨swap, settled, found⟩ := (Sound.mem_replayed sound).mp among
      obtain ⟨own, read, same⟩ := Sound.found sound settled
      have this : own = replay := Option.some.inj (read.symm.trans found)
      subst this
      exact same.reinvested (Sound.good sound settled) (each own among) reinvest
    obtain ⟨held0, held1⟩ := sum_held untouched
    have none : base.held0 = 0 ∧ base.held1 = 0 := by
      rw [total]
      unfold fundTotals
      rw [if_pos reinvest, CycleTotals.add_held0, CycleTotals.add_held1, held0, held1]
      exact ⟨rfl, rfl⟩
    obtain ⟨lp0, lp1, held0, held1⟩ := base
    obtain ⟨rfl, rfl⟩ := none
    rw [add_zero, add_zero]
  · rfl

variable {context : PrecheckContext} {answer : WalletReply} {tax : FeeTaxPlan} {stored : FeeTaxContext} {base final : CycleTotals}

theorem CycleDone.replayed_new (before : Sound SameSwap market job chain start) (sound : Sound SameSwap market job chain state)
    (audits : state.executedSwaps = start.executedSwaps) {new : List SettledSwap} (grown : state.settled = new ++ start.settled)
    (placed : ∀ swap ∈ new, state.swapPlan.get? swap.row.txIndex = some swap.record) (member : swap ∈ new) :
    replayedSwap job.toJob state swap.row = some (settledSwap job.toJob swap) := by
  have settled : swap ∈ state.settled := by
    rw [grown]
    exact List.mem_append_left _ member
  obtain ⟨hash, hashed, _⟩ := (sound.intact.held swap settled).succeeded
  have unaudited : auditOf state hash = none := by
    unfold auditOf
    apply List.find?_eq_none.mpr
    intro audit among same
    rw [audits] at among
    obtain ⟨owner, old, ownerHash, _⟩ := before.audited audit among
    have own : audit.txHash = hash := by simpa using same
    have inState : owner ∈ state.settled := by
      rw [grown]
      exact List.mem_append_right _ old
    have this : owner = swap := settled_hash sound.intact inState settled (by rw [ownerHash, hashed, own])
    subst this
    -- no swap is settled twice
    have apart := sound.intact.apart
    rw [grown] at apart
    exact (List.pairwise_append.mp apart).2.2 owner member owner old rfl
  unfold replayedSwap settledSwap
  rw [hashed, placed swap member]
  dsimp only
  unfold replayedAs storedMinOut
  rw [unaudited]
  dsimp only [Option.map_none, Option.getD_some]
  rw [Option.or_none]
  rfl

theorem CycleDone.acceptable (before : Sound SameSwap market job chain start) (sound : Sound SameSwap market job chain state)
    (planned : TaxPlanned market tax) (done : CycleDone market job chain answer.swaps tax start base final state)
    (calm : CalmReplies market job answer.swaps) (each : ∀ replay ∈ replayedSwaps job.toJob start, replay.Acceptable chain)
    (covered : ∀ replay ∈ replayedSwaps job.toJob state, replay.intent.purpose = .feeTax → replay.minOut ≤ replay.gained job.toJob chain) :
    ∀ replay ∈ replayedSwaps job.toJob state, replay.Acceptable chain := by
  obtain ⟨new, grown, placed, counted⟩ := done.settled
  obtain ⟨_, accepted⟩ := counted calm
  intro replay member
  obtain ⟨swap, settled, found⟩ := (Sound.mem_replayed sound).mp member
  rw [grown] at settled
  rcases List.mem_append.mp settled with isNew | old
  · rw [CycleDone.replayed_new before sound done.audits grown placed isNew] at found
    cases found
    exact accepted swap isNew
  · obtain ⟨was, read, wasSame⟩ := Sound.found before old
    have wasAcceptable := each was ((Sound.mem_replayed before).mpr ⟨swap, old, read⟩)
    rcases done.rewritten swap old with kept | ⟨intent, inTax, rewritten⟩
    · rw [replayedSwap_same kept done.audits, read] at found
      cases found
      exact wasAcceptable
    · -- the record was written again: it is of a tax swap
      have among : swap ∈ state.settled := by
        rw [grown]
        exact List.mem_append_right _ old
      obtain ⟨own, ownRead, same⟩ := Sound.found sound among
      have this : own = replay := Option.some.inj (ownRead.symm.trans found)
      subst this
      obtain ⟨record, stored, alike⟩ := (sound.intact.held swap among).record
      rw [rewritten] at stored
      cases stored
      have asRecorded : own.intent.purpose = swap.record.purpose := congrArg SwapIntent.purpose same.intent
      have asPlanned : swap.record.purpose = intent.purpose := congrArg SwapIntent.purpose alike
      have isTax := asRecorded.trans (asPlanned.trans (planned.1 intent inTax).purpose)
      exact wasSame.acceptable same wasAcceptable (covered own member isTax)

theorem Deploys.replays_iff (before : Sound SameSwap market job chain start) (sound : Sound SameSwap market job chain state)
    (deploys : Deploys market job chain context answer start tax stored base final state) (calm : CalmReplies market job answer.swaps)
    {totals : CycleTotals} :
    applyExecutedSwaps job.toJob chain (taxedFunds job context state.feeTax) state = .ok totals ↔
      Replayable job chain context state ∧ totals = final := by
  obtain ⟨taxed, replayed, cycle⟩ := deploys
  obtain ⟨planned, ⟨fee0, fee1, reward⟩, _⟩ := ensureFeeTaxPlan_spec taxed
  have funds : deployableFunds job context tax.fee0AfterTax tax.fee1AfterTax tax.rewardAfterTax = taxedFunds job context state.feeTax := by
    rw [cycle.tax, fee0, fee1, reward]
    rfl
  rw [funds] at replayed
  have taxStored := before.taxStored taxed
  obtain ⟨each, _, total⟩ := (applyExecutedSwaps_ok (Sound.recorded taxStored)).mp replayed
  obtain ⟨new, grown, placed, counted⟩ := cycle.settled
  have sums : final = fundTotals job.handling (taxedFunds job context state.feeTax) +
      ((replayedSwaps job.toJob state).map fun swap => swap.effect job.toJob chain).sum := by
    rw [(counted calm).1, Sound.remaining taxStored replayed, total, Sound.replayed_total taxStored, Sound.replayed_total sound, grown]
    unfold settledTotal
    rw [List.map_append, List.sum_append, add_assoc, add_comm (List.sum _) (List.sum _)]
  rw [applyExecutedSwaps_ok (Sound.recorded sound), ← sums]
  constructor
  · rintro ⟨acceptable, funded, rfl⟩
    exact ⟨⟨fun replay member _ => (acceptable replay member).accepted.2.2.2.2.2.2, funded⟩, rfl⟩
  · rintro ⟨⟨covered, funded⟩, rfl⟩
    exact ⟨CycleDone.acceptable taxStored sound planned cycle calm each covered, funded, rfl⟩

theorem replayedFacts_iff (sound : Sound SameSwap market job chain state) (taxed : state.feeTax = some stored) {capital : CapitalHarvestPlan}
    (split : state.capital = some capital)
    (splits : capital.deploy0 + capital.profit0 = final.lp0 ∧ capital.deploy1 + capital.profit1 = final.lp1)
    (only : ∀ totals, applyExecutedSwaps job.toJob chain (taxedFunds job context state.feeTax) state = .ok totals → totals = final) :
    (∃ facts, replayedFacts job chain context state = .ok facts) ↔
      applyExecutedSwaps job.toJob chain (taxedFunds job context state.feeTax) state = .ok final := by
  obtain ⟨⟨nonneg0, within0⟩, ⟨nonneg1, within1⟩, nonneg, within⟩ := sound.taxed stored taxed
  have reward : stakingRewardAfterTax job state = .ok (job.rewardQuote - stored.rewardTax) := by
    unfold stakingRewardAfterTax
    rw [taxed]
    dsimp only [Option.map_some, Option.getD_some]
    rw [demand_bind ⟨nonneg, within⟩]
    rfl
  have fees : applyStoredFeeTax job state = .ok (job.funds.fee0 - stored.tax0, job.funds.fee1 - stored.tax1) := by
    unfold applyStoredFeeTax
    rw [taxed]
    dsimp only
    rw [demand_bind ⟨nonneg0, nonneg1, within0, within1⟩]
    rfl
  unfold replayedFacts
  rw [reward, fees]
  rw [taxed] at only ⊢
  change (∃ facts, (applyExecutedSwaps job.toJob chain (taxedFunds job context (some stored)) state >>= fun totals => _) = _) ↔ _
  constructor
  · rintro ⟨facts, found⟩
    obtain ⟨totals, replayed, _⟩ := bind_ok found
    rw [replayed, only totals replayed]
  · intro replayed
    rw [replayed]
    refine ⟨(job.rewardQuote - stored.rewardTax, final, capital.deploy0, capital.deploy1, capital.profit0, capital.profit1), ?_⟩
    change (do
      demand ((storedCapital state final).1 + (storedCapital state final).2.2.1 = final.lp0 ∧
        (storedCapital state final).2.1 + (storedCapital state final).2.2.2 = final.lp1) _
      pure _) = _
    unfold storedCapital
    rw [split]
    dsimp only
    rw [demand_bind splits]
    rfl

theorem Deploys.commits_iff (before : Sound SameSwap market job chain start) (sound : Sound SameSwap market job chain state)
    (deploys : Deploys market job chain context answer start tax stored base final state) (calm : CalmReplies market job answer.swaps)
    {minted later : JobState} (mints : (mintPhase job chain final answer).run state = (.ok (), minted)) (same : SwapsSame job.toJob minted later) :
    (∃ facts, replayedFacts job chain context later = .ok facts) ↔ Replayable job chain context state := by
  have after := @mintPhase_same job chain state final answer _ rfl
  rw [mints] at after
  obtain ⟨capital, valuation, planned, settled⟩ := after
  have kept := settled.trans same
  obtain ⟨_, replays⟩ := replay_same (sound.capital (some capital)).intact kept
  have stays : applyExecutedSwaps job.toJob chain (taxedFunds job context later.feeTax) later =
      applyExecutedSwaps job.toJob chain (taxedFunds job context state.feeTax) state := by
    rw [replays, kept.tax]
    rfl
  have exact : ∀ totals, applyExecutedSwaps job.toJob chain (taxedFunds job context later.feeTax) later = .ok totals ↔
      Replayable job chain context state ∧ totals = final := by
    intro totals
    rw [stays]
    exact Deploys.replays_iff before sound deploys calm
  rw [replayedFacts_iff ((sound.capital (some capital)).same kept) (kept.tax.trans deploys.cycle.tax) kept.capital
    (planCapitalHarvest_splits planned) fun totals replayed => ((exact totals).mp replayed).2, exact]
  exact and_iff_left rfl

end

section
variable {market : Market} {job : CollectedJob} {context : StoredContext} {chain : LoggedChain job.owner} {state : JobState}
variable {tax : FeeTaxPlan} {cycle : CyclePlan}

theorem PlansSwaps.tokens (planned : PlansSwaps market job.toRebalanceJob context.toPrecheckContext tax cycle) {intent : SwapIntent}
    (member : intent ∈ tax.swaps ++ cycle.swaps) :
    (intent.tokenIn = job.pair.token0 ∨ intent.tokenIn = job.pair.token1) ∧
      (intent.tokenOut = job.pair.token0 ∨ intent.tokenOut = job.pair.token1 ∨ intent.tokenOut = market.settlementToken) := by
  obtain ⟨⟨_, taxed⟩, _, _, cycled⟩ := planned
  rcases List.mem_append.mp member with inTax | inCycle
  · exact ⟨taxSwaps_inputs (planFeeTax_quoted taxed).1 intent inTax, Or.inr (Or.inr ((planFeeTax_planned taxed).1 intent inTax).output)⟩
  · rcases ((planCycleSwaps_kind cycled).2 intent inCycle).sides with ⟨tokenIn, tokenOut⟩ | ⟨tokenIn, tokenOut⟩
    · exact ⟨Or.inl tokenIn, Or.inr (Or.inl tokenOut)⟩
    · exact ⟨Or.inr tokenIn, Or.inl tokenOut⟩

theorem CycleSent.replays {answer : LiveReply} {totals : CycleTotals}
    (sent : CycleSent market job.toRebalanceJob chain.toChainFacts context.toPrecheckContext answer tax cycle totals state)
    (calm : CalmReplies market job.toRebalanceJob answer.swaps) :
    ∃ reward, stakingRewardAfterTax job.toRebalanceJob state = .ok reward ∧
      applyExecutedSwaps job.toJob chain.toChainFacts (taxedFunds job.toRebalanceJob context.toPrecheckContext state.feeTax) state =
        .ok (totals - rewardTotals job.toRebalanceJob reward) := by
  obtain ⟨planned, sound, _, counted⟩ := sent
  obtain ⟨⟨erc20, erc20'⟩, still⟩ := calm
  obtain ⟨counts, accepted⟩ := counted fun intent member reply among => by
    obtain ⟨tokenIn, tokenOut⟩ := PlansSwaps.tokens planned member
    exact ⟨still reply among _ (tokenIn.imp_right Or.inl), still reply among _ tokenOut⟩
  have foreign : ∀ swap ∈ state.settled, ¬ Native swap := by
    intro swap settled
    obtain ⟨intent, prepared, place, written⟩ := sound.settledRecord settled
    obtain ⟨tokenIn, tokenOut⟩ := PlansSwaps.tokens planned (List.mem_of_getElem? place)
    unfold Native
    rw [written]
    rintro (native | native)
    · change intent.tokenIn = zeroAddress at native
      rw [native] at tokenIn
      exact tokenIn.elim (fun same => erc20 same.symm) fun same => erc20' same.symm
    · change intent.tokenOut = zeroAddress at native
      rw [native] at tokenOut
      exact tokenOut.elim (fun same => erc20 same.symm) fun other => other.elim (fun same => erc20' same.symm) fun same => market.notNative same.symm
  obtain ⟨reward, _⟩ := @LiveCommit.taxes_stored market job state tax planned.taxed sound.taxed
  have funds := (@PlansTax.funds market job context tax planned.taxed).1
  have each : ∀ replay ∈ replayedSwaps job.toJob state, replay.Acceptable chain.toChainFacts := by
    intro replay member
    obtain ⟨swap, settled, rfl⟩ := sound.mem_replayed.mp member
    exact (sound.acceptable_iff settled (accepted swap settled)).mpr (foreign swap settled)
  refine ⟨tax.rewardAfterTax, reward, ?_⟩
  rw [sound.taxed]
  apply (applyExecutedSwaps_ok sound.recorded_rows).mpr
  refine ⟨each, planned.funded sound each, ?_⟩
  rw [LiveCommit.replayed_total sound foreign, counts, funds]
  abel

end

section
variable (market : Market) (job : CollectedJob) (chain : LoggedChain job.owner) (context : StoredContext) (value : Hash → Nat)

def recovering (fresh : FreshState job.toJob) (live : LiveReply) (landed : Hash → Bool) (attempts : List Attempt) (last : Hash → Bool) : JobState :=
  resolveSlots job.toJob chain.toChainFacts last
    (run (afterAttempt market job.toRebalanceJob chain.toChainFacts context.toPrecheckContext value)
      (stopped market job.toRebalanceJob chain.toChainFacts context.toPrecheckContext live landed fresh.toJobState) attempts)

theorem recovering_sound (fresh : FreshState job.toJob) (live : LiveReply) (landed : Hash → Bool) (attempts : List Attempt) (last : Hash → Bool) :
    Sound SameSwap market job.toRebalanceJob chain.toChainFacts (recovering market job chain context value fresh live landed attempts last) := by
  have handed := LiveState.handed (@stopped_left market job context chain fresh live landed)
  exact resolveSlots_sound sameSwap_refl last (attempts_sound handed attempts)

end

/-- A replay after the live loop returns what the loop counted. After any attempts it returns what the last loop counted, and
the mint that follows is committed, if and only if the confirmed tax swaps are covered by their records as they are then, and
the confirmed strategy swaps are funded in the order of their slots. -/
theorem replay_agrees_iff (market : Market) (job : CollectedJob) (chain : LoggedChain job.owner) (context : StoredContext) (value : Hash → Nat)
    (fresh : FreshState job.toJob) (live : LiveReply) :
    (∀ totals state, (liveCycle market job.toRebalanceJob chain.toChainFacts context.toPrecheckContext live).run fresh.toJobState = (.ok totals, state) →
      CalmReplies market job.toRebalanceJob live.swaps →
      ∃ reward, stakingRewardAfterTax job.toRebalanceJob state = .ok reward ∧
        applyExecutedSwaps job.toJob chain.toChainFacts (taxedFunds job.toRebalanceJob context.toPrecheckContext state.feeTax) state =
          .ok (totals - rewardTotals job.toRebalanceJob reward)) ∧
    ∀ landed attempts (last : Attempt) totals state,
      (swapPhase market job.toRebalanceJob chain.toChainFacts context.toPrecheckContext last.answer).run
        (recovering market job chain context value fresh live landed attempts last.landed) = (.ok totals, state) →
      CalmReplies market job.toRebalanceJob last.answer.swaps →
      (applyExecutedSwaps job.toJob chain.toChainFacts (taxedFunds job.toRebalanceJob context.toPrecheckContext state.feeTax) state = .ok totals ↔
        Replayable job.toRebalanceJob chain.toChainFacts context.toPrecheckContext state) ∧
      ∀ minted later, (mintPhase job.toRebalanceJob chain.toChainFacts totals last.answer).run state = (.ok (), minted) →
        SwapsSame job.toJob minted later →
        ((∃ facts, replayedFacts job.toRebalanceJob chain.toChainFacts context.toPrecheckContext later = .ok facts) ↔
          Replayable job.toRebalanceJob chain.toChainFacts context.toPrecheckContext state) := by
  constructor
  · intro totals state ran calm
    have after := @liveCycle_sound market job.toRebalanceJob chain.toChainFacts context.toPrecheckContext live fresh _ rfl
    rw [ran] at after
    obtain ⟨tax, cycle, sent⟩ := after
    exact CycleSent.replays sent calm
  · intro landed attempts last totals state ran calm
    have before := recovering_sound market job chain context value fresh live landed attempts last.landed
    have after := swapPhase_sound sameSwap_refl before (attemptRewrites_same last.answer.taxQuotes) context.toPrecheckContext _ rfl
    rw [ran] at after
    obtain ⟨sound, tax, stored, base, deploys⟩ := after
    constructor
    · rw [Deploys.replays_iff before sound deploys calm]
      exact and_iff_left rfl
    · intro minted later mints same
      exact Deploys.commits_iff before sound deploys calm mints same

def exampleTaxJob : CollectedJob where
  toRebalanceJob := { exampleJob 2 (by decide) with funds := { principal0 := 1000, principal1 := 0, fee0 := 1000, fee1 := 0 } }
  collected := by decide

def exampleTaxLogs : List Log :=
  [{ address := 2, event := .transfer 100 60 100 }, { address := 9, event := .transfer 60 100 99 }]

def exampleTaxChain : LoggedChain 100 where
  toChainFacts := ChainFacts.ofEntries 100 (fun _ => .success) (fun _ => 10) (fun _ => exampleTaxLogs) (fun _ => 0)
  silent := by
    intro hash log member
    change log ∈ exampleTaxLogs at member
    rcases List.mem_pair.mp member with rfl | rfl
    · decide
    · decide

def exampleTaxSwap : SwapReply where
  approvals := .ok []
  prepared := .ok ⟨100, 95, by decide, by decide⟩
  send := { txTo := 70, calldataHash := 71, nonce := 0, outcome := .mined 7 (.ok ()) }
  drift _ := 0
  revokes := .ok []

def exampleTaxLive : LiveReply := { LiveCommit.exampleLive with swaps := [exampleTaxSwap] }

def exampleStoppedLive : LiveReply := { exampleTaxLive with units := .error .transport }

def exampleAttempt (quoted : Nat) (risk : Except ErrorCode Unit) : Attempt where
  landed _ := true
  answer :=
    { taxQuotes := fun _ _ _ amountIn => .ok (if amountIn = 100 then quoted else amountIn.toNat)
      otherAllocations := fun _ => 0
      position := .ok ()
      burn := none
      units := .ok ⟨1, 0⟩
      cycleQuotes := fun _ _ _ amountIn => .ok amountIn.toNat
      limits := .ok ()
      turnover := .ok ()
      swaps := [exampleTaxSwap]
      risk
      valuation := LiveCommit.exampleMint.valuation
      grants0 := .ok []
      grants1 := .ok []
      mint := LiveCommit.exampleMint.mint
      minted := .ok ()
      revokes0 := .ok []
      revokes1 := .ok [] }

def exampleTotals : CycleTotals := ⟨1900, 0, 0, 0⟩

def exampleSwapped (quoted : Nat) : Except ErrorCode CycleTotals × JobState :=
  (swapPhase exampleMarket exampleTaxJob.toRebalanceJob exampleTaxChain.toChainFacts exampleContext.toPrecheckContext
    (exampleAttempt quoted (.ok ())).answer).run
    (recovering exampleMarket exampleTaxJob exampleTaxChain exampleContext (fun _ => 0) (exampleFresh exampleTaxJob.toJob) exampleStoppedLive
      (fun _ => true) [exampleAttempt 100 (.error .transport)] fun _ => true)

def exampleMinted (quoted : Nat) : Except ErrorCode Unit × JobState :=
  (mintPhase exampleTaxJob.toRebalanceJob exampleTaxChain.toChainFacts exampleTotals (exampleAttempt quoted (.ok ())).answer).run
    (exampleSwapped quoted).2

def exampleReplayed (state : JobState) : Except ErrorCode CycleTotals :=
  applyExecutedSwaps exampleTaxJob.toJob exampleTaxChain.toChainFacts
    (taxedFunds exampleTaxJob.toRebalanceJob exampleContext.toPrecheckContext state.feeTax) state

def exampleLiveRun : Except ErrorCode CycleTotals × JobState :=
  (liveCycle exampleMarket exampleTaxJob.toRebalanceJob exampleTaxChain.toChainFacts exampleContext.toPrecheckContext exampleTaxLive).run
    (exampleFresh exampleTaxJob.toJob).toJobState

theorem replay_agrees_iff_covered :
    (∃ reward, exampleReplayed exampleLiveRun.2 = .ok (exampleTotals - rewardTotals exampleTaxJob.toRebalanceJob reward)) ∧
      exampleReplayed (exampleSwapped 100).2 = .ok exampleTotals ∧
      ∃ facts, replayedFacts exampleTaxJob.toRebalanceJob exampleTaxChain.toChainFacts exampleContext.toPrecheckContext (exampleMinted 100).2 =
        .ok facts := by
  have calm : CalmReplies exampleMarket exampleTaxJob.toRebalanceJob [exampleTaxSwap] := by
    refine ⟨⟨by decide, by decide⟩, fun reply member _ _ => ?_⟩
    rw [List.mem_singleton.mp member]
    rfl
  have replayable : Replayable exampleTaxJob.toRebalanceJob exampleTaxChain.toChainFacts exampleContext.toPrecheckContext (exampleSwapped 100).2 :=
    ⟨by decide, @of_decide_eq_true _ (decidableFunded _ _) rfl⟩
  obtain ⟨live, recovered⟩ := replay_agrees_iff exampleMarket exampleTaxJob exampleTaxChain exampleContext (fun _ => 0)
    (exampleFresh exampleTaxJob.toJob) exampleTaxLive
  obtain ⟨reward, _, replayed⟩ := live exampleTotals exampleLiveRun.2 (Prod.ext rfl rfl) calm
  obtain ⟨_, stopped⟩ := replay_agrees_iff exampleMarket exampleTaxJob exampleTaxChain exampleContext (fun _ => 0)
    (exampleFresh exampleTaxJob.toJob) exampleStoppedLive
  obtain ⟨replays, commits⟩ := stopped (fun _ => true) [exampleAttempt 100 (.error .transport)] (exampleAttempt 100 (.ok ())) exampleTotals
    (exampleSwapped 100).2 (Prod.ext rfl rfl) calm
  exact ⟨⟨reward, replayed⟩, replays.mpr replayable,
    (commits (exampleMinted 100).2 (exampleMinted 100).2 (Prod.ext rfl rfl) (SwapsSame.refl _)).mpr replayable⟩

/-- The tax was swapped for 99, as the first attempt accepted. A second attempt is quoted 120 for it: it counts the same totals,
and its mint can not be committed, since its record of the confirmed swap now asks for 118. -/
theorem requoted_tax_rejected :
    (exampleSwapped 120).1 = .ok exampleTotals ∧ exampleReplayed (exampleSwapped 120).2 = .error .unsupportedToken ∧
      (exampleMinted 120).1 = .ok () ∧
      replayedFacts exampleTaxJob.toRebalanceJob exampleTaxChain.toChainFacts exampleContext.toPrecheckContext (exampleMinted 120).2 =
        .error .unsupportedToken :=
  ⟨rfl, rfl, rfl, rfl⟩

end LpTerminal.ReplayAgreement
