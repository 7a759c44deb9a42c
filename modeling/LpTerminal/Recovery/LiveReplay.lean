import LpTerminal.Executor.CyclePlanBounds
import LpTerminal.Recovery.LiveSwaps

/-!
The replay of what the live run confirmed, wherever it stopped: the transfer logs show an ERC-20 swap as the wallet felt
it, and nothing of the native side of one.
-/

namespace LpTerminal.LiveSwaps

open Durable Fallible FeeTax FromWallet Rebalance Receipts SettledSwaps Store SwapJob SwapLegs SwapReplay WalletRun WalletSlots

section
variable {job : Job} {chain : ChainFacts job.owner} {state : JobState}

theorem resolveSlots_none (landed : Hash → Bool) {key : SlotKey} (none : state.journal.get? key = none) :
    (resolveSlots job chain landed state).journal.get? key = Option.none := by
  apply resolveSlots_keeps (I := fun middle => middle.journal.get? key = Option.none) none
  intro middle row _ present empty
  rw [resolveRow_frame]
  · exact empty
  · rintro rfl
    rw [empty] at present
    cases present

end

section
variable {job : RebalanceJob} {chain : ChainFacts job.owner} {stored : Option FeeTaxContext} {swaps : List SwapIntent} {state : JobState}

theorem LiveSound.resolve (sound : LiveSound job chain stored swaps state) (landed : Hash → Bool) :
    LiveSound job chain stored swaps (resolveSlots job.toJob chain landed state) := by
  obtain ⟨intact, resolved⟩ := resolveSlots_intact (fun _ => rfl) landed sound.intact
  refine ⟨resolved.tax.trans sound.taxed, intact, ?_, fun txIndex row read => ?_, fun audit member => ?_⟩
  · rw [resolved.plan]
    exact sound.listed
  · rw [resolved.plan]
    cases before : state.journal.get? (swapSlot job.toJob txIndex) with
    | none =>
      rw [resolveSlots_none landed before] at read
      cases read
    | some old => exact sound.sent txIndex old before
  · rw [resolved.audits] at member
    obtain ⟨swap, settled, found⟩ := sound.audited audit member
    exact ⟨swap, resolved.kept swap settled, found⟩

variable {market : Market} {context : PrecheckContext}

theorem LiveState.resolve (left : LiveState market job chain context state) (landed : Hash → Bool) :
    LiveState market job chain context (resolveSlots job.toJob chain landed state) := by
  cases left with
  | untaxed sound => exact .untaxed (sound.resolve landed)
  | unsent tax planned sound => exact .unsent tax planned (sound.resolve landed)
  | sent tax cycle planned sound => exact .sent tax cycle planned (sound.resolve landed)

theorem LiveState.sound (left : LiveState market job chain context state) : ∃ stored swaps, LiveSound job chain stored swaps state := by
  cases left with
  | untaxed sound => exact ⟨_, _, sound⟩
  | unsent tax planned sound => exact ⟨_, _, sound⟩
  | sent tax cycle planned sound => exact ⟨_, _, sound⟩

theorem LiveSound.settledRecord (sound : LiveSound job chain stored swaps state) {swap : SettledSwap} (member : swap ∈ state.settled) :
    ∃ intent prepared, swaps[swap.row.txIndex]? = some intent ∧ swap.record = refreshed (planRecord swap.row.txIndex intent) prepared := by
  have held := sound.intact.held swap member
  obtain ⟨intent, prepared, place, written⟩ := sound.sent _ _ held.row
  obtain ⟨record, read, rfl⟩ := held.record
  rw [written] at read
  exact ⟨intent, prepared, place, (Option.some.inj read).symm⟩

theorem settled_hash {R : SwapPlanRecord → SwapPlanRecord → Prop} (intact : Intact R job.toJob chain state) {first second : SettledSwap} (left : first ∈ state.settled)
    (right : second ∈ state.settled) (same : first.row.txHash = second.row.txHash) : first = second := by
  have firstHeld := intact.held first left
  have secondHeld := intact.held second right
  obtain ⟨hash, hashed, _⟩ := firstHeld.succeeded
  have row := state.journal.uniqueHash _ (Table.get?_mem firstHeld.row) _ (Table.get?_mem secondHeld.row) (by rw [hashed]; rfl) same
  have slots : (state.settled.map fun swap => swap.row.txIndex).Nodup := List.pairwise_map.mpr intact.apart
  exact List.inj_on_of_nodup_map slots left right (congrArg JobTransaction.txIndex row)

section

variable (sound : LiveSound job chain stored swaps state)
include sound

theorem LiveSound.replayed {swap : SettledSwap} (member : swap ∈ state.settled) :
    replayedSwap job.toJob state swap.row = some (settledSwap job.toJob swap) := by
  have held := sound.intact.held swap member
  obtain ⟨hash, hashed, _⟩ := held.succeeded
  obtain ⟨record, read, rfl⟩ := held.record
  obtain ⟨intent, prepared, _, written⟩ := sound.settledRecord member
  unfold replayedSwap settledSwap
  rw [hashed, read]
  dsimp only
  unfold replayedAs
  cases found : auditOf state hash with
  | none =>
    rw [written]
    rfl
  | some audit =>
    obtain ⟨other, among, otherHash, same⟩ := sound.audited audit (List.mem_of_find?_eq_some found)
    have own : audit.txHash = hash := by simpa using List.find?_some found
    have this : other = swap := settled_hash sound.intact among member (by rw [otherHash, hashed, own])
    subst this
    dsimp only
    rw [same, written]
    rfl

theorem LiveSound.row_replayed {row : JobTransaction}
    (member : row ∈ confirmedSwaps job.toJob state) :
    ∃ swap ∈ state.settled, swap.row = row ∧ replayedSwap job.toJob state row = some (settledSwap job.toJob swap) := by
  obtain ⟨swap, settled, rfl⟩ := (mem_confirmedSwaps sound.intact).mp member
  exact ⟨swap, settled, rfl, sound.replayed settled⟩

theorem LiveSound.recorded_rows : Recorded job.toJob state := by
  intro row member
  obtain ⟨_, _, _, replayed⟩ := sound.row_replayed member
  rw [replayed]
  rfl

theorem LiveSound.mem_replayed {replay : ReplayedSwap} :
    replay ∈ replayedSwaps job.toJob state ↔ ∃ swap ∈ state.settled, settledSwap job.toJob swap = replay := by
  unfold replayedSwaps
  rw [List.mem_filterMap]
  constructor
  · rintro ⟨row, member, found⟩
    obtain ⟨swap, settled, _, replayed⟩ := sound.row_replayed member
    rw [replayed] at found
    exact ⟨swap, settled, Option.some.inj found⟩
  · rintro ⟨swap, settled, rfl⟩
    exact ⟨swap.row, (mem_confirmedSwaps sound.intact).mpr ⟨swap, settled, rfl⟩, sound.replayed settled⟩

end

def TakesApart (first second : SwapIntent) : Prop :=
  first.purpose = .strategy → second.purpose = .strategy → first.tokenIn ≠ second.tokenIn

theorem PlansSwaps.apart {tax : FeeTaxPlan} {cycle : CyclePlan} (planned : PlansSwaps market job context tax cycle)
    (nonneg : (fundTotals job.handling (deployableFunds job context tax.fee0AfterTax tax.fee1AfterTax tax.rewardAfterTax)).Nonneg) :
    (tax.swaps ++ cycle.swaps).Pairwise TakesApart := by
  obtain ⟨⟨_, taxed⟩, _, _, cycled⟩ := planned
  obtain ⟨_, _, distinct⟩ := planCycleSwaps_spec nonneg cycled
  have purposes : ∀ swap ∈ tax.swaps, swap.purpose ≠ .strategy := by
    intro swap member strategy
    have isTax := ((planFeeTax_planned taxed).1 swap member).purpose
    rw [strategy] at isTax
    cases isTax
  refine List.pairwise_append.mpr ⟨?_, distinct.imp fun apart _ _ => apart, fun first inTax _ _ strategy => absurd strategy (purposes first inTax)⟩
  exact List.pairwise_of_forall_mem_list fun first member _ _ strategy => absurd strategy (purposes first member)

theorem LiveSound.replayed_apart (sound : LiveSound job chain stored swaps state) (apart : swaps.Pairwise TakesApart) :
    (replayedSwaps job.toJob state).Pairwise fun first second => TakesApart first.intent second.intent := by
  have inPlan : ∀ row ∈ confirmedSwaps job.toJob state, ∀ replay, replayedSwap job.toJob state row = some replay →
      ∃ intent, swaps[row.txIndex]? = some intent ∧ replay.intent.purpose = intent.purpose ∧ replay.intent.tokenIn = intent.tokenIn := by
    intro row member replay found
    obtain ⟨swap, settled, rfl, replayed⟩ := sound.row_replayed member
    rw [replayed] at found
    obtain ⟨intent, prepared, place, written⟩ := sound.settledRecord settled
    cases found
    refine ⟨intent, place, ?_, ?_⟩
    · change (plannedIntent swap.record).purpose = _
      rw [written]
      rfl
    · change (plannedIntent swap.record).tokenIn = _
      rw [written]
      rfl
  have sorted : (confirmedSwaps job.toJob state).Pairwise fun first second => first.txIndex < second.txIndex := by
    refine (confirmedSwaps_sorted state).imp_of_mem fun {first second} left right before => ?_
    obtain ⟨swap, settled, rfl⟩ := (mem_confirmedSwaps sound.intact).mp left
    obtain ⟨other, settled', rfl⟩ := (mem_confirmedSwaps sound.intact).mp right
    rw [(sound.intact.held swap settled).slot, (sound.intact.held other settled').slot] at before
    simpa [swapSlot, slotKey, Prod.Lex.lt_iff] using before
  unfold replayedSwaps
  refine List.pairwise_filterMap.mpr (sorted.imp_of_mem fun {first second} left right before replay found replay' found' => ?_)
  obtain ⟨intent, place, purpose, tokenIn⟩ := inPlan first left replay found
  obtain ⟨intent', place', purpose', tokenIn'⟩ := inPlan second right replay' found'
  obtain ⟨below, at_⟩ := List.getElem?_eq_some_iff.mp place
  obtain ⟨below', at'⟩ := List.getElem?_eq_some_iff.mp place'
  have distinct := List.pairwise_iff_getElem.mp apart first.txIndex second.txIndex below below' before
  rw [at_, at'] at distinct
  unfold TakesApart
  rw [purpose, purpose', tokenIn, tokenIn']
  exact distinct

end

section
variable {pair : Pair} {handling : FeeHandling} {totals : CycleTotals} {intent other : SwapIntent} {spent gained minOut : ℤ}

theorem taxEffect_nonneg (accepted : Accepts intent spent gained minOut) (tax : intent.purpose = .feeTax) :
    (executionEffect pair handling intent (executionOf intent spent gained)).Nonneg := by
  have unspent : 0 ≤ (executionOf intent spent gained).unspentFee := sub_nonneg.mpr (feeSpent_le accepted)
  unfold executionEffect
  rw [tax]
  dsimp only
  split
  · split
    · exact ⟨unspent, le_rfl, le_rfl, le_rfl⟩
    · exact ⟨le_rfl, le_rfl, unspent, le_rfl⟩
  · split
    · exact ⟨le_rfl, unspent, le_rfl, le_rfl⟩
    · exact ⟨le_rfl, le_rfl, le_rfl, unspent⟩

theorem nonneg_add {left right : CycleTotals} (first : left.Nonneg) (second : right.Nonneg) : (left + right).Nonneg :=
  ⟨add_nonneg first.1 second.1, add_nonneg first.2.1 second.2.1, add_nonneg first.2.2.1 second.2.2.1, add_nonneg first.2.2.2 second.2.2.2⟩

theorem strategyEffect_nonneg (nonneg : totals.Nonneg) (accepted : Accepts intent spent gained minOut) (gains : 0 ≤ gained)
    (within : StrategySwap pair handling totals intent) :
    (totals + executionEffect pair handling intent (executionOf intent spent gained)).Nonneg := by
  obtain ⟨principalOut, feeOut⟩ := outputs_nonneg accepted gains
  have principal := (principalSpent_le accepted).trans within.principal
  have fee := (feeSpent_le accepted).trans within.fee
  obtain ⟨lp0, lp1, held0, held1⟩ := nonneg
  unfold executionEffect CycleTotals.lpOf CycleTotals.heldOf at *
  rw [within.purpose]
  dsimp only
  split
  · rename_i first
    rw [if_pos first] at principal fee
    refine ⟨?_, add_nonneg lp1 principalOut, ?_, add_nonneg held1 feeOut⟩
    · change 0 ≤ totals.lp0 + -_
      omega
    · change 0 ≤ totals.held0 + -_
      omega
  · rename_i second
    rw [if_neg second] at principal fee
    refine ⟨add_nonneg lp0 principalOut, ?_, add_nonneg held0 feeOut, ?_⟩
    · change 0 ≤ totals.lp1 + -_
      omega
    · change 0 ≤ totals.held1 + -_
      omega

theorem lpOf_add (left right : CycleTotals) (token : Address) :
    (left + right).lpOf pair token = left.lpOf pair token + right.lpOf pair token := by
  unfold CycleTotals.lpOf
  split <;> rfl

theorem heldOf_add (left right : CycleTotals) (token : Address) :
    (left + right).heldOf pair token = left.heldOf pair token + right.heldOf pair token := by
  unfold CycleTotals.heldOf
  split <;> rfl

theorem strategyEffect_other (kind : StrategyKind pair handling intent) (execution : SwapExecutionAllocation) {token : Address}
    (side : token = pair.token0 ∨ token = pair.token1) (apart : intent.tokenIn ≠ token) :
    (executionEffect pair handling intent execution).lpOf pair token = execution.principalOut ∧
      (executionEffect pair handling intent execution).heldOf pair token = execution.feeOut := by
  unfold executionEffect CycleTotals.lpOf CycleTotals.heldOf
  rw [kind.purpose]
  dsimp only
  rcases side with rfl | rfl
  · rw [if_neg apart, if_pos rfl, if_pos rfl]
    exact ⟨rfl, rfl⟩
  · rcases kind.sides with ⟨tokenIn, _⟩ | ⟨tokenIn, _⟩
    · rw [if_pos tokenIn, if_neg pair.distinct.symm, if_neg pair.distinct.symm]
      exact ⟨rfl, rfl⟩
    · exact absurd tokenIn apart

theorem strategyEffect_within (accepted : Accepts intent spent gained minOut) (gains : 0 ≤ gained) (kind : StrategyKind pair handling intent)
    (within : StrategySwap pair handling totals other) (apart : intent.tokenIn ≠ other.tokenIn) :
    StrategySwap pair handling (totals + executionEffect pair handling intent (executionOf intent spent gained)) other := by
  obtain ⟨principalOut, feeOut⟩ := outputs_nonneg accepted gains
  obtain ⟨isKind, principal, fee⟩ := within
  obtain ⟨lp, held⟩ := strategyEffect_other kind (executionOf intent spent gained) (isKind.sides.imp And.left And.left) apart
  refine ⟨isKind, ?_, ?_⟩
  · rw [lpOf_add, lp]
    omega
  · rw [heldOf_add, held]
    omega

theorem lpOf_nonneg (nonneg : totals.Nonneg) (token : Address) : 0 ≤ totals.lpOf pair token := by
  unfold CycleTotals.lpOf
  split
  · exact nonneg.1
  · exact nonneg.2.1

theorem taxEffect_within (accepted : Accepts intent spent gained minOut) (tax : intent.purpose = .feeTax)
    (within : StrategySwap pair handling totals other) :
    StrategySwap pair handling (totals + executionEffect pair handling intent (executionOf intent spent gained)) other := by
  have nonneg : (executionEffect pair handling intent (executionOf intent spent gained)).Nonneg := taxEffect_nonneg accepted tax
  obtain ⟨isKind, principal, fee⟩ := within
  refine ⟨isKind, ?_, ?_⟩
  · rw [lpOf_add]
    have more := @lpOf_nonneg pair _ nonneg other.tokenIn
    omega
  · rw [heldOf_add]
    have more := @heldOf_nonneg pair _ nonneg other.tokenIn
    omega

end

section
variable {job : Job} {chain : ChainFacts job.owner} {totals : CycleTotals}

theorem funded_apart {replays : List ReplayedSwap} (nonneg : totals.Nonneg)
    (each : ∀ replay ∈ replays, replay.Acceptable chain ∧ 0 ≤ replay.gained job chain)
    (within : ∀ replay ∈ replays, replay.intent.purpose = .strategy → StrategySwap job.pair job.handling totals replay.intent)
    (apart : replays.Pairwise fun first second => TakesApart first.intent second.intent) : FundedInOrder job chain totals replays := by
  induction replays generalizing totals with
  | nil => trivial
  | cons replay rest ih =>
    obtain ⟨⟨acceptable, gains⟩, each⟩ := List.forall_mem_cons.mp each
    obtain ⟨first, within⟩ := List.forall_mem_cons.mp within
    obtain ⟨ahead, apart⟩ := List.pairwise_cons.mp apart
    have accepted := acceptable.accepted
    cases purpose : replay.intent.purpose with
    | feeTax =>
      refine ⟨fun strategy => ?_, ih (nonneg_add nonneg (taxEffect_nonneg accepted purpose)) each (fun other member strategy => ?_) apart⟩
      · rw [purpose] at strategy
        cases strategy
      · exact taxEffect_within accepted purpose (within other member strategy)
    | strategy =>
      have own := first purpose
      have after := strategyEffect_nonneg nonneg accepted gains own
      refine ⟨fun _ => after, ih after each (fun other member strategy => ?_) apart⟩
      exact strategyEffect_within accepted gains own.toStrategyKind (within other member strategy) (ahead other member purpose strategy)

end

structure LoggedChain (owner : Address) extends ChainFacts owner where
  silent : ∀ hash, ∀ log ∈ (receiptOf hash).logs, log.address ≠ zeroAddress

/-- A job whose exit was accepted: it collected no negative amount. -/
structure CollectedJob extends RebalanceJob where
  collected : 0 ≤ funds.principal0 ∧ 0 ≤ funds.principal1 ∧ 0 ≤ funds.fee0 ∧ 0 ≤ funds.fee1

/-- A context as the live run writes it from the store: every allocated token has its three parts, none of them negative. -/
structure StoredContext extends PrecheckContext where
  parts : ∀ token, (priorPrincipal token = none ∧ priorHeld token = none ∧ priorProfit token = none ∧ prior token = 0) ∨
    ∃ principal held profit, priorPrincipal token = some principal ∧ priorHeld token = some held ∧ priorProfit token = some profit ∧
      0 ≤ principal ∧ 0 ≤ held ∧ 0 ≤ profit

theorem StoredContext.principal_nonneg (context : StoredContext) (token : Address) : 0 ≤ context.toPrecheckContext.principal token := by
  unfold PrecheckContext.principal
  rcases context.parts token with ⟨none, _⟩ | ⟨principal, _, _, some, _, _, nonneg, _⟩
  · rw [none]
    exact le_rfl
  · rw [some]
    exact nonneg

theorem StoredContext.held_eq (context : StoredContext) (token : Address) :
    context.toPrecheckContext.held token = (context.priorHeld token).getD 0 := by
  unfold PrecheckContext.held
  rcases context.parts token with ⟨none, noHeld, noProfit, idle⟩ | ⟨_, _, _, some, someHeld, someProfit, _⟩
  · rw [none, noHeld, noProfit]
    exact idle
  · rw [some, someHeld, someProfit]

def taxedFunds (job : RebalanceJob) (context : PrecheckContext) (stored : Option FeeTaxContext) : CycleFunds :=
  deployableFunds job context (job.funds.fee0 - (stored.map FeeTaxContext.tax0).getD 0)
    (job.funds.fee1 - (stored.map FeeTaxContext.tax1).getD 0) (job.rewardQuote - (stored.map FeeTaxContext.rewardTax).getD 0)

def Native (swap : SettledSwap) : Prop :=
  swap.record.tokenIn = zeroAddress ∨ swap.record.tokenOut = zeroAddress

instance {swap : SettledSwap} : Decidable (Native swap) := inferInstanceAs (Decidable (_ ∨ _))

section
variable {owner : Address}

theorem LoggedChain.native_delta (chain : LoggedChain owner) (hash : Hash) :
    receiptTokenDelta (chain.receiptOf hash) zeroAddress owner = 0 := by
  unfold receiptTokenDelta
  apply List.sum_eq_zero
  intro delta member
  obtain ⟨log, logged, rfl⟩ := List.mem_map.mp member
  have elsewhere := chain.silent hash log logged
  unfold logDelta
  split
  · exact if_neg elsewhere
  · rfl

end

section
variable {job : RebalanceJob} {chain : LoggedChain job.owner} {stored : Option FeeTaxContext} {swaps : List SwapIntent} {state : JobState}

variable {swap : SettledSwap}

theorem erc20_amounts (erc20 : ¬ Native swap) :
    (settledSwap job.toJob swap).spent job.toJob chain.toChainFacts = walletSpent chain.toChainFacts swap ∧
      (settledSwap job.toJob swap).gained job.toJob chain.toChainFacts = walletGained chain.toChainFacts swap := by
  obtain ⟨paysErc20, getsErc20⟩ := not_or.mp erc20
  unfold ReplayedSwap.spent ReplayedSwap.gained walletSpent walletGained
  rw [chain.logged _ _ paysErc20, chain.logged _ _ getsErc20]
  exact ⟨rfl, rfl⟩

theorem LiveSound.acceptable_iff (sound : LiveSound job chain.toChainFacts stored swaps state)
    (member : swap ∈ state.settled) (accepted : LiveAccepted chain.toChainFacts swap) :
    (settledSwap job.toJob swap).Acceptable chain.toChainFacts ↔ ¬ Native swap := by
  obtain ⟨hash, hashed, succeeded⟩ := (sound.intact.held swap member).succeeded
  obtain ⟨intent, prepared, _, written⟩ := sound.settledRecord member
  obtain ⟨minOut, least, accepts⟩ := accepted
  have minimum : (settledSwap job.toJob swap).minOut = minOut := by
    change swap.record.minOut.getD _ = _
    rw [least]
    rfl
  have positive : 0 < minOut := by
    rw [written] at least
    cases least
    exact prepared.positive
  constructor
  · rintro ⟨_, replays⟩ native
    rw [minimum] at replays
    rcases native with native | native
    · have spends : 0 < -receiptTokenDelta _ swap.record.tokenIn job.owner := replays.2.2.2.2.1
      rw [native, chain.native_delta] at spends
      exact absurd spends (by decide)
    · have gains : minOut ≤ receiptTokenDelta _ swap.record.tokenOut job.owner := replays.2.2.2.2.2.2
      rw [native, chain.native_delta] at gains
      omega
  · intro erc20
    obtain ⟨spent, gained⟩ := @erc20_amounts job chain swap erc20
    refine ⟨?_, ?_⟩
    · change (chain.receiptOf (swap.row.txHash.getD 0)).status = .success
      rw [hashed]
      exact succeeded
    · rw [spent, gained, minimum]
      exact accepts

theorem erc20_effect (erc20 : ¬ Native swap) :
    (settledSwap job.toJob swap).effect job.toJob chain.toChainFacts = liveEffect job.toJob chain.toChainFacts swap := by
  obtain ⟨spent, gained⟩ := @erc20_amounts job chain swap erc20
  unfold ReplayedSwap.effect
  rw [spent, gained]
  rfl

theorem LiveSound.minOut_positive (sound : LiveSound job chain.toChainFacts stored swaps state)
    (member : swap ∈ state.settled) : 0 < (settledSwap job.toJob swap).minOut := by
  obtain ⟨intent, prepared, _, written⟩ := sound.settledRecord member
  change 0 < swap.record.minOut.getD _
  rw [written]
  exact prepared.positive

end

section
variable {market : Market} {job : CollectedJob} {context : StoredContext}

theorem PlansTax.funds {tax : FeeTaxPlan} (planned : PlansTax market job.toRebalanceJob tax) :
    deployableFunds job.toRebalanceJob context.toPrecheckContext tax.fee0AfterTax tax.fee1AfterTax tax.rewardAfterTax =
        taxedFunds job.toRebalanceJob context.toPrecheckContext (some tax.context) ∧
      (fundTotals job.handling (taxedFunds job.toRebalanceJob context.toPrecheckContext (some tax.context))).Nonneg := by
  obtain ⟨quote, taxed⟩ := planned
  obtain ⟨⟨_, tax0⟩, ⟨_, tax1⟩, _, reward⟩ := planFeeTax_within taxed
  obtain ⟨fee0, fee1, rewardAfter⟩ := (planFeeTax_quoted taxed).2
  obtain ⟨principal0, principal1, _, _⟩ := job.collected
  have rewarded : ∀ token, 0 ≤ if job.handling = .reinvest then rewardOn job.toRebalanceJob (job.rewardQuote - tax.context.rewardTax) token else 0 := by
    intro token
    unfold rewardOn
    split
    · split
      · exact sub_nonneg.mpr reward
      · exact le_rfl
    · exact le_rfl
  refine ⟨?_, ?_⟩
  · rw [fee0, fee1, rewardAfter]
    rfl
  · exact fundTotals_nonneg ⟨taxedFunds job.toRebalanceJob context.toPrecheckContext (some tax.context),
      add_nonneg (add_nonneg principal0 (context.principal_nonneg _)) (rewarded _),
      add_nonneg (add_nonneg principal1 (context.principal_nonneg _)) (rewarded _), sub_nonneg.mpr tax0, sub_nonneg.mpr tax1⟩

variable {chain : LoggedChain job.owner} {state : JobState}

theorem PlansSwaps.funded {tax : FeeTaxPlan} {cycle : CyclePlan}
    (planned : PlansSwaps market job.toRebalanceJob context.toPrecheckContext tax cycle)
    (sound : LiveSound job.toRebalanceJob chain.toChainFacts (some tax.context) (tax.swaps ++ cycle.swaps) state)
    (each : ∀ replay ∈ replayedSwaps job.toJob state, replay.Acceptable chain.toChainFacts) :
    FundedInOrder job.toJob chain.toChainFacts
      (fundTotals job.handling (taxedFunds job.toRebalanceJob context.toPrecheckContext (some tax.context)))
      (replayedSwaps job.toJob state) := by
  obtain ⟨same, nonneg⟩ := @PlansTax.funds market job context tax planned.taxed
  have apart := planned.apart (by rw [same]; exact nonneg)
  obtain ⟨⟨_, taxed⟩, _, _, cycled⟩ := planned
  rw [same] at cycled
  obtain ⟨from_, within, _⟩ := planCycleSwaps_spec nonneg cycled
  apply funded_apart nonneg
  · intro replay member
    refine ⟨each replay member, ?_⟩
    obtain ⟨swap, settled, rfl⟩ := sound.mem_replayed.mp member
    exact (sound.minOut_positive settled).le.trans (each _ member).accepted.2.2.2.2.2.2
  · intro replay member strategy
    obtain ⟨swap, settled, rfl⟩ := sound.mem_replayed.mp member
    obtain ⟨intent, prepared, place, written⟩ := sound.settledRecord settled
    have purpose : intent.purpose = .strategy := by
      change (plannedIntent swap.record).purpose = .strategy at strategy
      rw [written] at strategy
      exact strategy
    have among : intent ∈ cycle.swaps := by
      rcases List.mem_append.mp (List.mem_of_getElem? place) with inTax | inCycle
      · have isTax := ((planFeeTax_planned taxed).1 intent inTax).purpose
        rw [purpose] at isTax
        cases isTax
      · exact inCycle
    have own := within intent among
    rw [from_] at own
    change StrategySwap _ _ _ (plannedIntent swap.record)
    rw [written]
    exact ⟨⟨own.purpose, own.sides, own.reinvested⟩, own.principal, own.fee⟩
  · exact sound.replayed_apart apart

theorem LiveState.replays_iff (left : LiveState market job.toRebalanceJob chain.toChainFacts context.toPrecheckContext state) :
    (∃ totals, applyExecutedSwaps job.toJob chain.toChainFacts
      (taxedFunds job.toRebalanceJob context.toPrecheckContext state.feeTax) state = .ok totals) ↔
      ∀ replay ∈ replayedSwaps job.toJob state, replay.Acceptable chain.toChainFacts := by
  have empty : ∀ stored, LiveSound job.toRebalanceJob chain.toChainFacts stored [] state → replayedSwaps job.toJob state = [] := by
    intro stored sound
    apply List.eq_nil_iff_forall_not_mem.mpr
    intro replay member
    obtain ⟨swap, settled, _⟩ := sound.mem_replayed.mp member
    rw [sound.nothing.2.1] at settled
    cases settled
  have exact : ∀ stored swaps, LiveSound job.toRebalanceJob chain.toChainFacts stored swaps state →
      ((∀ replay ∈ replayedSwaps job.toJob state, replay.Acceptable chain.toChainFacts) →
        FundedInOrder job.toJob chain.toChainFacts
          (fundTotals job.handling (taxedFunds job.toRebalanceJob context.toPrecheckContext state.feeTax)) (replayedSwaps job.toJob state)) →
      ((∃ totals, applyExecutedSwaps job.toJob chain.toChainFacts
        (taxedFunds job.toRebalanceJob context.toPrecheckContext state.feeTax) state = .ok totals) ↔
        ∀ replay ∈ replayedSwaps job.toJob state, replay.Acceptable chain.toChainFacts) := by
    intro stored swaps sound funded
    constructor
    · rintro ⟨totals, replayed⟩
      exact ((applyExecutedSwaps_ok sound.recorded_rows).mp replayed).1
    · intro each
      exact ⟨_, (applyExecutedSwaps_ok sound.recorded_rows).mpr ⟨each, funded each, rfl⟩⟩
  cases left with
  | untaxed sound => exact exact _ _ sound fun _ => by rw [empty _ sound]; trivial
  | unsent tax planned sound => exact exact _ _ sound fun _ => by rw [empty _ sound]; trivial
  | sent tax cycle planned sound =>
    refine exact _ _ sound fun each => ?_
    rw [sound.taxed]
    exact planned.funded sound each

def stopped (market : Market) (job : RebalanceJob) (chain : ChainFacts job.owner) (context : PrecheckContext) (answer : LiveReply)
    (landed : Hash → Bool) (start : JobState) : JobState :=
  resolveSlots job.toJob chain landed (left (liveCycle market job chain context answer) start)

theorem stopped_left (fresh : FreshState job.toJob) (answer : LiveReply) (landed : Hash → Bool) :
    LiveState market job.toRebalanceJob chain.toChainFacts context.toPrecheckContext
      (stopped market job.toRebalanceJob chain.toChainFacts context.toPrecheckContext answer landed fresh.toJobState) := by
  apply LiveState.resolve
  apply left_keeps (triple_weaken (liveCycle_sound fresh) (fun _ here => here) ?_ fun _ stopped => stopped) rfl
  rintro totals state ⟨tax, cycle, sent⟩
  exact sent.left

/-- The live loop, undisturbed, accepts what satisfies its check by what the transactions moved. Wherever it stopped, the
replay of confirmed swaps that satisfy the check goes through if and only if none of them takes or pays the native currency. -/
theorem confirmed_replays_iff (market : Market) (job : CollectedJob) (chain : LoggedChain job.owner) (context : StoredContext)
    (fresh : FreshState job.toJob) (answer : LiveReply) :
    (∀ totals final, (liveCycle market job.toRebalanceJob chain.toChainFacts context.toPrecheckContext answer).run fresh.toJobState =
        (.ok totals, final) → (∀ reply ∈ answer.swaps, ∀ token, reply.drift token = 0) →
      ∀ swap ∈ final.settled, LiveAccepted chain.toChainFacts swap) ∧
    ∀ landed state, state = stopped market job.toRebalanceJob chain.toChainFacts context.toPrecheckContext answer landed fresh.toJobState →
      (∀ swap ∈ state.settled, LiveAccepted chain.toChainFacts swap) →
      ((∃ totals, applyExecutedSwaps job.toJob chain.toChainFacts
        (taxedFunds job.toRebalanceJob context.toPrecheckContext state.feeTax) state = .ok totals) ↔
        ∀ swap ∈ state.settled, ¬ Native swap) := by
  constructor
  · intro totals final ran undisturbed
    have after := @liveCycle_sound market job.toRebalanceJob chain.toChainFacts context.toPrecheckContext answer fresh _ rfl
    rw [ran] at after
    obtain ⟨tax, cycle, sent⟩ := after
    exact (sent.counted fun intent _ reply among => ⟨undisturbed reply among _, undisturbed reply among _⟩).2
  · rintro landed state rfl accepted
    have left := @stopped_left market job context chain fresh answer landed
    obtain ⟨stored, swaps, sound⟩ := left.sound
    rw [left.replays_iff]
    constructor
    · intro each swap settled
      exact (sound.acceptable_iff settled (accepted swap settled)).mp (each _ (sound.mem_replayed.mpr ⟨swap, settled, rfl⟩))
    · intro erc20 replay member
      obtain ⟨swap, settled, rfl⟩ := sound.mem_replayed.mp member
      exact (sound.acceptable_iff settled (accepted swap settled)).mpr (erc20 swap settled)

end

def exampleMarket : Market where
  settlementToken := 9
  wrappedNative := 8
  threshold := 5
  notNative := by decide
  nonneg := by decide

def exampleJob (first : Address) (distinct : first ≠ 1) : CollectedJob where
  id := 0
  owner := 100
  pair := { token0 := first, token1 := 1, riskToken := first, quoteToken := 1, distinct, roles := Or.inl ⟨rfl, rfl⟩ }
  handling := .reinvest
  maxSlippageBps := 100
  rewardQuote := 0
  univ4 := true
  positionManager := 50
  funds := { principal0 := 1000, principal1 := 0, fee0 := 0, fee1 := 0 }
  collected := by decide

def exampleLogs (first : Address) : List Log :=
  (if first = zeroAddress then [] else [{ address := first, event := .transfer 100 60 500 }]) ++ [{ address := 1, event := .transfer 60 100 490 }]

def exampleChain (first : Address) : LoggedChain 100 where
  toChainFacts := ChainFacts.ofEntries 100 (fun _ => .success) (fun _ => 10) (fun _ => exampleLogs first) (fun _ => -500)
  silent := by
    intro hash log member
    change log ∈ exampleLogs first at member
    unfold exampleLogs at member
    rcases List.mem_append.mp member with spent | gained
    · split at spent
      · cases spent
      · rename_i erc20
        rw [List.mem_singleton.mp spent]
        exact erc20
    · rw [List.mem_singleton.mp gained]
      decide

def exampleContext : StoredContext where
  baseline _ := 0
  prior _ := 0
  priorPrincipal _ := none
  priorHeld _ := none
  priorProfit _ := none
  parts _ := Or.inl ⟨rfl, rfl, rfl, rfl⟩

def exampleFresh (job : Job) : FreshState job where
  journal := Journal.empty
  swapPlan := Table.empty
  executedSwaps := []
  feeTax := none
  capital := none
  wallet _ := 2000
  mined := []
  settled := []
  noRow _ := rfl
  noPlan := rfl
  noAudit := rfl
  noTax := rfl
  noSettled := rfl

def exampleAnswer : LiveReply where
  taxQuotes _ _ _ amountIn := .ok amountIn.toNat
  burn := none
  units := .ok ⟨1, 1⟩
  cycleQuotes _ _ _ amountIn := .ok amountIn.toNat
  limits := .ok ()
  swaps := [{ approvals := .ok [], prepared := .ok ⟨500, 480, by decide, by decide⟩
              send := { txTo := 70, calldataHash := 71, nonce := 0, outcome := .mined 7 (.ok ()) }, drift := fun _ => 0, revokes := .ok [] }]

def exampleStopped (first : Address) (distinct : first ≠ 1) : JobState :=
  stopped exampleMarket (exampleJob first distinct).toRebalanceJob (exampleChain first).toChainFacts exampleContext.toPrecheckContext
    exampleAnswer (fun _ => true) (exampleFresh (exampleJob first distinct).toJob).toJobState

def exampleReplay (first : Address) (distinct : first ≠ 1) : Except ErrorCode CycleTotals :=
  applyExecutedSwaps (exampleJob first distinct).toJob (exampleChain first).toChainFacts
    (taxedFunds (exampleJob first distinct).toRebalanceJob exampleContext.toPrecheckContext (exampleStopped first distinct).feeTax)
    (exampleStopped first distinct)

theorem confirmed_replays_iff_erc20 : ∃ totals, exampleReplay 2 (by decide) = .ok totals :=
  ((confirmed_replays_iff exampleMarket (exampleJob 2 (by decide)) (exampleChain 2) exampleContext (exampleFresh _) exampleAnswer).2
    (fun _ => true) _ rfl (by decide)).mpr (by decide)

/-- 500 of the native currency were swapped for 490 of the token, as the live run accepts: every replay refuses it. -/
theorem native_swap_rejected :
    (∃ totals, ((liveCycle exampleMarket (exampleJob 0 (by decide)).toRebalanceJob (exampleChain 0).toChainFacts
        exampleContext.toPrecheckContext exampleAnswer).run (exampleFresh (exampleJob 0 (by decide)).toJob).toJobState).1 = .ok totals) ∧
      (∀ swap ∈ (exampleStopped 0 (by decide)).settled, LiveAccepted (exampleChain 0).toChainFacts swap) ∧
      exampleReplay 0 (by decide) = .error .unsupportedToken := by
  refine ⟨⟨_, rfl⟩, by decide, rfl⟩

end LpTerminal.LiveSwaps
