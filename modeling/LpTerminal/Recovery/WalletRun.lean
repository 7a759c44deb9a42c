import LpTerminal.Lib.Trace
import LpTerminal.Recovery.WalletSlots

/-!
What every attempt on a rebalance keeps, and what its swap loop adds up to: the funds, and the effects of
all settled swaps.
-/

namespace LpTerminal.WalletRun

open Capital Durable Fallible FeeTax FromWallet Rebalance Receipts SettledSwaps Store SwapJob SwapLegs SwapReplay Trace WalletSlots

/-- A record of a tax swap is one, and where fees are reinvested no strategy swap takes any. -/
structure GoodRecord (market : Market) (job : Job) (record : SwapPlanRecord) : Prop where
  tax : record.purpose = .feeTax → TaxSwap market (plannedIntent record)
  reinvested : job.handling = .reinvest → record.purpose = .strategy → record.feeIn = 0

structure Sound (R : SwapPlanRecord → SwapPlanRecord → Prop) (market : Market) (job : RebalanceJob)
    (chain : ChainFacts job.owner) (state : JobState) : Prop where
  intact : Intact R job.toJob chain state
  records : ∀ record ∈ state.swapPlan.rows, GoodRecord market job.toJob record
  audited : ∀ audit ∈ state.executedSwaps, ∃ swap ∈ state.settled, swap.row.txHash = some audit.txHash ∧
    swapOf audit.intent = swapOf (plannedIntent swap.record)
  taxed : ∀ tax, state.feeTax = some tax → tax.Within job.funds.fee0 job.funds.fee1 job.rewardQuote

def settledSwap (job : Job) (swap : SettledSwap) : ReplayedSwap where
  hash := swap.row.txHash.getD 0
  intent := plannedIntent swap.record
  minOut := storedMinOut job swap.record

def settledEffect (job : Job) (chain : ChainFacts job.owner) (swap : SettledSwap) : CycleTotals :=
  (settledSwap job swap).effect job chain

def settledTotal (job : Job) (chain : ChainFacts job.owner) (swaps : List SettledSwap) : CycleTotals :=
  (swaps.map (settledEffect job chain)).sum

def Calm (swap : SlottedSwap) (answer : SwapReply) : Prop :=
  swap.intent.tokenIn ≠ zeroAddress ∧ swap.intent.tokenOut ≠ zeroAddress ∧
    answer.drift swap.intent.tokenIn = 0 ∧ answer.drift swap.intent.tokenOut = 0

section
variable {R : SwapPlanRecord → SwapPlanRecord → Prop} {market : Market} {job : RebalanceJob} {chain : ChainFacts job.owner}
variable {start state : JobState} {swap : SlottedSwap} {answer : SwapReply}

theorem taxSwap_same {first second : SwapIntent} (same : swapOf first = swapOf second) (tax : TaxSwap market first) :
    TaxSwap market second := by
  have stripped : TaxSwap market (swapOf first) := ⟨tax.purpose, tax.output, tax.principal, tax.fee⟩
  rw [same] at stripped
  exact ⟨stripped.purpose, stripped.output, stripped.principal, stripped.fee⟩

theorem GoodRecord.same {first second : SwapPlanRecord} (good : GoodRecord market job.toJob first) (same : SameSwap first second) :
    GoodRecord market job.toJob second := by
  have purpose : first.purpose = second.purpose := congrArg SwapIntent.purpose same
  have fee : first.feeIn = second.feeIn := congrArg SwapIntent.feeIn same
  exact ⟨fun isTax => taxSwap_same same (good.tax (purpose.trans isTax)),
    fun reinvest strategy => fee ▸ good.reinvested reinvest (purpose.trans strategy)⟩

theorem Sound.same (sound : Sound R market job chain start) (same : SwapsSame job.toJob start state) :
    Sound R market job chain state := by
  refine ⟨sound.intact.same same, ?_, ?_, ?_⟩
  · rw [same.plan]
    exact sound.records
  · rw [same.audits, same.settled]
    exact sound.audited
  · rw [same.tax]
    exact sound.taxed

theorem Sound.extends (sound : Sound R market job chain start) (intact : Intact R job.toJob chain state)
    (records : ∀ record ∈ state.swapPlan.rows, record ∈ start.swapPlan.rows ∨ GoodRecord market job.toJob record)
    (audits : state.executedSwaps = start.executedSwaps) (tax : state.feeTax = start.feeTax)
    (kept : ∀ swap ∈ start.settled, swap ∈ state.settled) : Sound R market job chain state := by
  refine ⟨intact, fun record member => ?_, fun audit member => ?_, by rw [tax]; exact sound.taxed⟩
  · rcases records record member with old | good
    · exact sound.records record old
    · exact good
  · rw [audits] at member
    obtain ⟨swap, settled, found⟩ := sound.audited audit member
    exact ⟨swap, kept swap settled, found⟩

variable {record : SwapPlanRecord}

theorem SentFrom.kept {txIndex : Nat} (sent : SentFrom txIndex record start state) :
    ∀ swap ∈ start.settled, swap ∈ state.settled := by
  intro swap member
  rcases sent.settled with same | ⟨row, _, more⟩
  · rw [same]
    exact member
  · rw [more]
    exact List.mem_cons_of_mem _ member

theorem Sound.sent {txIndex : Nat} (sound : Sound R market job chain start)
    (intact : Intact R job.toJob chain state) (sent : SentFrom txIndex record start state) : Sound R market job chain state :=
  sound.extends intact (fun found member => Or.inl (by rw [sent.plan] at member; exact member)) sent.audits sent.tax (SentFrom.kept sent)

theorem Sound.recorded (sound : Sound R market job chain start) (good : GoodRecord market job.toJob record)
    (own : ∀ swap ∈ start.settled, swap.row.txIndex = record.txIndex → R swap.record record) :
    Sound R market job chain (withRecord start record) := by
  refine sound.extends (sound.intact.recorded own) (fun found member => ?_) rfl rfl fun _ member => member
  rcases Table.mem_put.mp member with rfl | ⟨old, _⟩
  · exact Or.inr good
  · exact Or.inl old

theorem Sound.written (sound : Sound R market job chain start) {records : List SwapPlanRecord}
    (good : ∀ record ∈ records, GoodRecord market job.toJob record)
    (rewrites : ∀ swap ∈ start.settled, ∀ record ∈ records, swap.row.txIndex = record.txIndex → R swap.record record) :
    Sound R market job chain (written start records) := by
  refine sound.extends (written_intact sound.intact rewrites) (fun record member => ?_) rfl rfl fun _ member => member
  rcases Table.mem_foldl_put member with new | old
  · exact Or.inr (good record new)
  · exact Or.inl old

theorem land_wallet (stepIndex : Nat) (hash : Hash) (token : Address) :
    (land job.toJob chain stepIndex hash state).wallet token =
      state.wallet token + (if hash ∈ state.mined.map Prod.snd then 0 else chain.felt hash token) := by
  unfold land
  split
  · exact (add_zero _).symm
  · rfl

theorem withRecord_wallet (stepIndex : Nat) (hash : Hash) (record : SwapPlanRecord) :
    (land job.toJob chain stepIndex hash (withRecord state record)).wallet = (land job.toJob chain stepIndex hash state).wallet := by
  unfold land withRecord
  dsimp only
  split <;> rfl

theorem felt_erc20 {token : Address} (erc20 : token ≠ zeroAddress) (hash : Hash) :
    chain.felt hash token = receiptTokenDelta (chain.receiptOf hash) token job.owner := by
  unfold ChainFacts.felt
  rw [if_neg erc20, sub_zero, chain.logged hash token erc20]

theorem sameSwap_refl (record : SwapPlanRecord) : SameSwap record record := rfl

theorem refreshed_same (record : SwapPlanRecord) (prepared : PreparedSwap) : SameSwap (refreshed record prepared) record := rfl

/-- What a sent swap leaves: its own slot settled with its record, and what the totals gain is its effect. -/
structure SwapDone (job : RebalanceJob) (chain : ChainFacts job.owner) (swap : SlottedSwap) (answer : SwapReply)
    (start : JobState) (effect : CycleTotals) (state : JobState) : Prop where
  audits : state.executedSwaps = start.executedSwaps
  tax : state.feeTax = start.feeTax
  plan : ∀ other, other ≠ swap.txIndex → state.swapPlan.get? other = start.swapPlan.get? other
  settled : ∃ row record, row.txIndex = swap.txIndex ∧ SameSwap record swap.record ∧
    state.settled = ⟨row, record⟩ :: start.settled ∧ state.swapPlan.get? swap.txIndex = some record ∧
    (Calm swap answer → effect = settledEffect job.toJob chain ⟨row, record⟩ ∧
      (settledSwap job.toJob ⟨row, record⟩).Acceptable chain)

theorem SwapDone.same {effect : CycleTotals} {final : JobState} (done : SwapDone job chain swap answer start effect state)
    (same : SwapsSame job.toJob state final) : SwapDone job chain swap answer start effect final := by
  obtain ⟨audits, tax, plan, settled⟩ := done
  refine ⟨same.audits.trans audits, same.tax.trans tax, ?_, ?_⟩
  · rw [same.plan]
    exact plan
  · rw [same.plan, same.settled]
    exact settled

theorem read_amounts (calm : Calm swap answer) {before after : JobState} {hash : Hash}
    (wallet : after.wallet = (land job.toJob chain swapStep hash before).wallet)
    (spends : 0 < before.wallet swap.intent.tokenIn - (after.wallet swap.intent.tokenIn + answer.drift swap.intent.tokenIn)) :
    before.wallet swap.intent.tokenIn - (after.wallet swap.intent.tokenIn + answer.drift swap.intent.tokenIn) =
        -receiptTokenDelta (chain.receiptOf hash) swap.intent.tokenIn job.owner ∧
      after.wallet swap.intent.tokenOut + answer.drift swap.intent.tokenOut - before.wallet swap.intent.tokenOut =
        receiptTokenDelta (chain.receiptOf hash) swap.intent.tokenOut job.owner := by
  obtain ⟨erc20In, erc20Out, stillIn, stillOut⟩ := calm
  have read : ∀ token, after.wallet token =
      before.wallet token + (if hash ∈ before.mined.map Prod.snd then 0 else chain.felt hash token) := by
    intro token
    rw [wallet]
    exact land_wallet swapStep hash token
  rw [read, stillIn] at spends ⊢
  rw [read, stillOut]
  by_cases mined : hash ∈ before.mined.map Prod.snd
  · -- a transaction mined before moves nothing now
    rw [if_pos mined] at spends
    omega
  · rw [if_neg mined] at spends ⊢
    rw [if_neg mined, felt_erc20 erc20In, felt_erc20 erc20Out]
    omega

theorem settled_effect (calm : Calm swap answer) {before after : JobState} {row : JobTransaction} {hash : Hash}
    {prepared : PreparedSwap} (hashed : row.txHash = some hash)
    (succeeded : (chain.receiptOf hash).status = .success) (wallet : after.wallet = (land job.toJob chain swapStep hash before).wallet)
    (same : record = refreshed swap.record prepared)
    (accepted : Accepts swap.intent
      (before.wallet swap.intent.tokenIn - (after.wallet swap.intent.tokenIn + answer.drift swap.intent.tokenIn))
      (after.wallet swap.intent.tokenOut + answer.drift swap.intent.tokenOut - before.wallet swap.intent.tokenOut) prepared.minOut) :
    executionEffect job.pair job.handling { swap.intent with quotedOut := prepared.amountOut } (executionOf swap.intent
        (before.wallet swap.intent.tokenIn - (after.wallet swap.intent.tokenIn + answer.drift swap.intent.tokenIn))
        (after.wallet swap.intent.tokenOut + answer.drift swap.intent.tokenOut - before.wallet swap.intent.tokenOut)) =
      settledEffect job.toJob chain ⟨row, record⟩ ∧ (settledSwap job.toJob ⟨row, record⟩).Acceptable chain := by
  obtain ⟨spent, gained⟩ := read_amounts calm wallet accepted.2.2.2.2.1
  rw [spent, gained] at accepted ⊢
  subst same
  have known : (settledSwap job.toJob ⟨row, refreshed swap.record prepared⟩).hash = hash := by
    unfold settledSwap
    rw [hashed]
    rfl
  refine ⟨?_, ?_, ?_⟩
  · unfold settledEffect ReplayedSwap.effect ReplayedSwap.spent ReplayedSwap.gained
    rw [known]
    rfl
  · rw [known]
    exact succeeded
  · unfold ReplayedSwap.spent ReplayedSwap.gained
    rw [known]
    exact accepted

theorem sendSwap_sound (reflexive : ∀ record, R record record) (sound : Sound R market job chain start) (approvalTx : Nat)
    (free : Free start swap.txIndex) (recorded : start.swapPlan.get? swap.txIndex = some swap.record)
    (good : GoodRecord market job.toJob swap.record) :
    Triple (· = start) (sendSwap job chain approvalTx swap answer)
      (fun result state => Sound R market job chain state ∧ SwapDone job chain swap answer start result.1 state)
      (Sound R market job chain) := by
  have stays : ∀ state, SwapsSame job.toJob start state → Sound R market job chain state := fun state same => sound.same same
  unfold sendSwap
  refine triple_bind (Q := fun _ state => SwapsSame job.toJob start state)
    (triple_reply (fun state _ here _ => by rw [here]; exact SwapsSame.refl _) fun state _ here _ => by rw [here]; exact sound)
    fun approvals => ?_
  refine triple_bind (triple_weaken (sendAllowances_same (by decide) _ _) (fun _ same => same) (fun _ _ same => same) stays)
    fun _ => triple_bind (Q := fun _ state => SwapsSame job.toJob start state)
      (triple_reply (fun _ _ same _ => same) fun state _ same _ => stays state same) fun prepared => ?_
  -- the state before the record is refreshed
  refine triple_each fun before same => ?_
  refine triple_bind (Q := fun found state => found = before ∧ state = before) (triple_read fun state here => ⟨here, here⟩)
    fun found => triple_assume fun here => ?_
  subst here
  have recordedStill : found.swapPlan.get? swap.txIndex = some swap.record := by rw [same.plan]; exact recorded
  have freeStill : Free found swap.txIndex := free.same same
  rw [recordedStill]
  dsimp only
  let record := refreshed swap.record prepared
  have quoted : Sound R market job chain (withRecord found record) :=
    (stays found same).recorded (good.same (refreshed_same swap.record prepared).symm)
      fun settled member clash => absurd clash (freeStill settled member)
  refine triple_bind (Q := fun _ state => state = withRecord found record) (triple_write fun state here => by rw [here]; rfl)
    fun _ => triple_bind (Q := fun before state => before = withRecord found record ∧ state = withRecord found record)
      (triple_read fun state here => ⟨here, here⟩) fun before => triple_assume fun here => ?_
  subst here
  have placed : (withRecord found record).swapPlan.get? swap.txIndex = some record :=
    Table.get?_put_same found.swapPlan record
  have again : Sound R market job chain (withRecord (withRecord found record) record) :=
    quoted.recorded (good.same (refreshed_same swap.record prepared).symm) fun settled member clash =>
      absurd clash (freeStill settled member)
  have own : ∀ {other}, (withRecord found record).swapPlan.get? swap.txIndex = some other → refreshed other prepared = record := by
    intro other read
    rw [placed] at read
    cases read
    rfl
  refine triple_bind (triple_weaken (sendRecoverySwap_swap reflexive quoted.intact freeStill swap.intent prepared answer.send)
    (fun _ here => here) (fun _ _ sent => sent) fun state stopped => ?_) fun receipt => triple_each fun sent after => ?_
  · obtain ⟨intact, unwritten | ⟨other, read, sent⟩⟩ := stopped
    · exact quoted.sent intact unwritten
    · rw [own read] at sent
      exact again.sent intact sent
  obtain ⟨intact, other, read, from_, settles⟩ := after
  rw [own read] at from_ settles
  have sentSound : Sound R market job chain sent := again.sent intact from_
  obtain ⟨row, hash, index, hashed, shown, succeeded, settled, wallet⟩ := settles
  -- what happens next leaves the swaps alone
  have rest : ∀ state, SwapsSame job.toJob sent state → Sound R market job chain state := fun state same => sentSound.same same
  have drifted : SwapsSame job.toJob sent { sent with wallet := fun token => sent.wallet token + answer.drift token } :=
    ⟨fun _ => rfl, rfl, rfl, rfl, rfl, rfl⟩
  refine triple_bind (Q := fun _ state => state = { sent with wallet := fun token => sent.wallet token + answer.drift token })
    (triple_write fun state here => by rw [here]) fun _ => ?_
  refine triple_bind (Q := fun after state => after = { sent with wallet := fun token => sent.wallet token + answer.drift token } ∧
    state = after) (triple_read fun state here => ⟨here, rfl⟩) fun after => triple_assume fun here => ?_
  subst here
  dsimp only
  refine triple_bind (Q := fun execution state => SwapsSame job.toJob sent state ∧ Accepts swap.intent
      (found.wallet swap.intent.tokenIn - (sent.wallet swap.intent.tokenIn + answer.drift swap.intent.tokenIn))
      (sent.wallet swap.intent.tokenOut + answer.drift swap.intent.tokenOut - found.wallet swap.intent.tokenOut) prepared.minOut ∧
      execution = executionOf swap.intent
        (found.wallet swap.intent.tokenIn - (sent.wallet swap.intent.tokenIn + answer.drift swap.intent.tokenIn))
        (sent.wallet swap.intent.tokenOut + answer.drift swap.intent.tokenOut - found.wallet swap.intent.tokenOut))
    (triple_reply (fun state execution here allocated => ?_) fun state _ here _ => ?_) fun execution => ?_
  · obtain ⟨accepted, same⟩ := allocateSwapExecution_ok.mp allocated
    exact ⟨by rw [here]; exact drifted, accepted, same⟩
  · rw [here]
    exact rest _ drifted
  refine triple_bind (Q := fun _ state => SwapsSame job.toJob sent state ∧ SwapDone job chain swap answer start
      (executionEffect job.pair job.handling { swap.intent with quotedOut := prepared.amountOut } execution) state)
    (triple_reply (fun state _ here _ => ⟨here.1, ?_⟩) fun state _ here _ => rest state here.1) fun revokes => ?_
  · obtain ⟨same', accepted, rfl⟩ := here
    have frame : ∀ other, other ≠ swap.txIndex → sent.swapPlan.get? other = start.swapPlan.get? other := by
      intro other different
      rw [from_.plan, ← same.plan]
      change ((found.swapPlan.put record).put record).get? other = found.swapPlan.get? other
      have apart : other ≠ record.txIndex := different
      rw [Table.get?_put_other apart, Table.get?_put_other apart]
    have kept : sent.settled = ⟨row, record⟩ :: start.settled := by
      rw [settled, ← same.settled]
      rfl
    have felt : sent.wallet = (land job.toJob chain swapStep hash found).wallet := by
      rw [wallet, withRecord_wallet, withRecord_wallet]
    have stored : sent.swapPlan.get? swap.txIndex = some record := by
      rw [from_.plan]
      exact Table.get?_put_same (found.swapPlan.put record) record
    exact SwapDone.same ⟨from_.audits.trans same.audits, from_.tax.trans same.tax, frame, row, record, index, refreshed_same _ _,
      kept, stored, fun calm => settled_effect calm hashed (shown ▸ succeeded) felt rfl accepted⟩ same'
  refine triple_each fun middle done => ?_
  have still : ∀ state, SwapsSame job.toJob middle state → Sound R market job chain state :=
    fun state same => rest state (done.1.trans same)
  refine triple_bind (triple_weaken (sendAllowances_same (by decide) _ _) (fun state here => ?_) (fun _ _ same => same) still)
    fun _ => triple_pure fun state same => ⟨still state same, done.2.same same⟩
  rw [here]
  exact SwapsSame.refl _

/-- What the loop leaves: its slots settled, and the totals grown by their effects. -/
structure LoopDone (job : RebalanceJob) (chain : ChainFacts job.owner) (pending : List SlottedSwap) (answers : List SwapReply)
    (start : JobState) (before after : CycleTotals) (state : JobState) : Prop where
  audits : state.executedSwaps = start.executedSwaps
  tax : state.feeTax = start.feeTax
  plan : ∀ other, (∀ swap ∈ pending, other ≠ swap.txIndex) → state.swapPlan.get? other = start.swapPlan.get? other
  settled : ∃ new, state.settled = new ++ start.settled ∧
    (∀ swap ∈ new, (∃ slot ∈ pending, swap.row.txIndex = slot.txIndex) ∧
      state.swapPlan.get? swap.row.txIndex = some swap.record) ∧
    ((∀ swap ∈ pending, ∀ answer ∈ answers, Calm swap answer) → after = before + settledTotal job.toJob chain new ∧
      ∀ swap ∈ new, (settledSwap job.toJob swap).Acceptable chain)

variable {answers : List SwapReply}

theorem sendPending_sound (reflexive : ∀ record, R record record) {pending : List SlottedSwap}
    (sound : Sound R market job chain start) (approvalTx : Nat) (totals : CycleTotals) (distinct : DistinctSlots pending)
    (ready : ∀ swap ∈ pending, Free start swap.txIndex ∧ start.swapPlan.get? swap.txIndex = some swap.record ∧
      GoodRecord market job.toJob swap.record) :
    Triple (· = start) (sendPending job chain approvalTx totals pending answers)
      (fun final state => Sound R market job chain state ∧ LoopDone job chain pending answers start totals final state)
      (Sound R market job chain) := by
  induction pending generalizing start approvalTx totals answers with
  | nil =>
    refine triple_pure fun state here => ?_
    subst here
    exact ⟨sound, rfl, rfl, fun _ _ => rfl, [], rfl, fun _ member => absurd member List.not_mem_nil,
      fun _ => ⟨(add_zero _).symm, fun _ member => absurd member List.not_mem_nil⟩⟩
  | cons swap rest ih =>
    cases answers with
    | nil => exact triple_fail fun state here => by rw [here]; exact sound
    | cons answer later =>
      obtain ⟨ahead, distinct⟩ := List.pairwise_cons.mp distinct
      obtain ⟨⟨free, recorded, good⟩, ready⟩ := List.forall_mem_cons.mp ready
      refine triple_bind (sendSwap_sound reflexive sound approvalTx free recorded good) fun result => triple_each fun middle first => ?_
      obtain ⟨effect, nextTx⟩ := result
      obtain ⟨middleSound, done⟩ := first
      obtain ⟨row, record, index, _, settled, stored, counted⟩ := done.settled
      -- the slots still to come are free, and hold their records
      have readyThen : ∀ other ∈ rest, Free middle other.txIndex ∧ middle.swapPlan.get? other.txIndex = some other.record ∧
          GoodRecord market job.toJob other.record := by
        intro other member
        obtain ⟨free, recorded, good⟩ := ready other member
        refine ⟨?_, (done.plan _ (ahead other member).symm).trans recorded, good⟩
        unfold Free
        rw [settled]
        exact List.forall_mem_cons.mpr ⟨by rw [index]; exact ahead other member, free⟩
      refine triple_weaken (ih middleSound nextTx (totals + effect) distinct readyThen) (fun _ here => here) ?_ fun _ stopped => stopped
      rintro final state ⟨stateSound, loop⟩
      obtain ⟨new, grown, slots, total⟩ := loop.settled
      have own : state.swapPlan.get? swap.txIndex = some record := (loop.plan _ ahead).trans stored
      refine ⟨stateSound, loop.audits.trans done.audits, loop.tax.trans done.tax, fun other others => ?_, new ++ [⟨row, record⟩],
        by rw [grown, settled, List.append_assoc]; rfl, fun settledSwap member => ?_, fun calm => ?_⟩
      · obtain ⟨first, others⟩ := List.forall_mem_cons.mp others
        exact (loop.plan other others).trans (done.plan other first)
      · rcases List.mem_append.mp member with later | this
        · obtain ⟨⟨slot, among, same⟩, stored⟩ := slots settledSwap later
          exact ⟨⟨slot, List.mem_cons_of_mem _ among, same⟩, stored⟩
        · cases List.mem_singleton.mp this
          exact ⟨⟨swap, List.mem_cons_self, index⟩, by rw [index]; exact own⟩
      · obtain ⟨effects, each⟩ := total fun other member reply among =>
          calm other (List.mem_cons_of_mem _ member) reply (List.mem_cons_of_mem _ among)
        obtain ⟨counts, acceptable⟩ := counted (calm swap List.mem_cons_self answer List.mem_cons_self)
        refine ⟨?_, fun settledSwap member => ?_⟩
        · unfold settledTotal at effects ⊢
          dsimp only at counts
          rw [effects, List.map_append, List.sum_append, List.map_singleton, List.sum_singleton, counts, add_assoc]
          exact congrArg _ (add_comm _ _)
        · rcases List.mem_append.mp member with later | this
          · exact each settledSwap later
          · cases List.mem_singleton.mp this
            exact acceptable

def Rewrites (R : SwapPlanRecord → SwapPlanRecord → Prop) (state : JobState) (slots : SlotPlan) : Prop :=
  ∀ swap ∈ state.settled, ∀ record ∈ slots.records, swap.row.txIndex = record.txIndex → R swap.record record

variable {tax : FeeTaxPlan} {cycle : List SwapIntent}

theorem settled_slot (intact : Intact R job.toJob chain state) (planned : TaxPlanned market tax) {settled : SettledSwap}
    (member : settled ∈ state.settled)
    (given : record ∈ (planSlots job.toJob state tax.swaps cycle).records) (same : settled.row.txIndex = record.txIndex) :
    ∃ intent ∈ tax.swaps, record = planRecord settled.row.txIndex intent ∧
      ∃ old, (taxLeg intent false).record state = some old ∧ old.txIndex = settled.row.txIndex := by
  obtain ⟨taxes, strategies, _, intents, _⟩ := @planSlots_spec job.toJob state tax.swaps cycle planned.2
  obtain ⟨slot, among, rfl⟩ := List.mem_map.mp given
  have index : settled.row.txIndex = slot.txIndex := same
  rcases List.mem_append.mp among with inTaxes | inStrategies
  · have intent : slot.intent ∈ tax.swaps := intents ▸ List.mem_map_of_mem inTaxes
    refine ⟨slot.intent, intent, by rw [index]; rfl, ?_⟩
    rcases taxes slot inTaxes with ⟨old, found, at_⟩ | fresh
    · exact ⟨old, found, at_.trans index.symm⟩
    · exact absurd index (free_fresh intact fresh.ge settled member)
  · exact absurd index ((strategies slot inStrategies).free intact settled member)

theorem rewrites_same (sound : Sound SameSwap market job chain state) (planned : TaxPlanned market tax) :
    Rewrites SameSwap state (planSlots job.toJob state tax.swaps cycle) := by
  intro settled member record given same
  obtain ⟨intent, inTax, rfl, old, found, index⟩ := settled_slot sound.intact planned member given same
  obtain ⟨stored, read, keeps⟩ := (sound.intact.held settled member).record
  have among := List.mem_of_find?_eq_some found
  have this : stored = old := Table.eq_of_key (Table.get?_mem read) among ((Table.get?_key read).trans index.symm)
  subst this
  have matched := List.find?_some found
  simp only [taxLeg, Bool.and_eq_true, decide_eq_true_eq] at matched
  obtain ⟨⟨purpose, tokenIn⟩, amountIn⟩ := matched
  have was := (sound.records stored among).tax purpose
  have now := planned.1 intent inTax
  refine keeps.trans ?_
  change swapOf (plannedIntent stored) = swapOf intent
  unfold swapOf
  rw [SwapIntent.mk.injEq]
  exact ⟨was.purpose.trans now.purpose.symm, tokenIn, was.output.trans now.output.symm, amountIn, rfl,
    was.principal.trans now.principal.symm, was.fee.trans (amountIn.trans now.fee.symm)⟩

def TaxOpen (state : JobState) (tax : FeeTaxPlan) : Prop :=
  ∀ intent ∈ tax.swaps, ∀ record, (taxLeg intent false).record state = some record → Free state record.txIndex

theorem rewrites_open (intact : Intact R job.toJob chain state) (planned : TaxPlanned market tax) (open_ : TaxOpen state tax) :
    Rewrites R state (planSlots job.toJob state tax.swaps cycle) := by
  intro settled member record given same
  obtain ⟨intent, inTax, _, old, found, index⟩ := settled_slot intact planned member given same
  exact absurd index.symm (open_ intent inTax old found settled member)

def CalmReplies (market : Market) (job : RebalanceJob) (answers : List SwapReply) : Prop :=
  (job.pair.token0 ≠ zeroAddress ∧ job.pair.token1 ≠ zeroAddress) ∧
    ∀ answer ∈ answers, ∀ token, token = job.pair.token0 ∨ token = job.pair.token1 ∨ token = market.settlementToken →
      answer.drift token = 0

/-- What the swaps of an attempt leave: new swaps settled with their records, the old ones as they were unless the tax
was recorded again, and the totals grown by the new effects. -/
structure CycleDone (market : Market) (job : RebalanceJob) (chain : ChainFacts job.owner) (answers : List SwapReply)
    (plan : FeeTaxPlan) (start : JobState) (totals final : CycleTotals) (state : JobState) : Prop where
  audits : state.executedSwaps = start.executedSwaps
  tax : state.feeTax = start.feeTax
  rewritten : ∀ swap ∈ start.settled, state.swapPlan.get? swap.row.txIndex = start.swapPlan.get? swap.row.txIndex ∨
    ∃ intent ∈ plan.swaps, state.swapPlan.get? swap.row.txIndex = some (planRecord swap.row.txIndex intent)
  settled : ∃ new, state.settled = new ++ start.settled ∧ (∀ swap ∈ new, state.swapPlan.get? swap.row.txIndex = some swap.record) ∧
    (CalmReplies market job answers → final = fundTotals job.handling (remainingFunds totals) + settledTotal job.toJob chain new ∧
      ∀ swap ∈ new, (settledSwap job.toJob swap).Acceptable chain)

theorem calm_pending (calm : CalmReplies market job answers) (planned : TaxPlanned market tax)
    (inputs : TaxInputs job.pair tax) (kind : ∀ swap ∈ cycle, StrategyKind job.pair job.handling swap) :
    ∀ swap ∈ (planSlots job.toJob state tax.swaps cycle).pending, ∀ answer ∈ answers, Calm swap answer := by
  obtain ⟨_, _, _, taxes, strategies⟩ := @planSlots_spec job.toJob state tax.swaps cycle planned.2
  obtain ⟨⟨erc20, erc20'⟩, still⟩ := calm
  intro swap member answer among
  rcases List.mem_append.mp member with pendingTax | strategy
  · have intent : swap.intent ∈ tax.swaps := taxes ▸ List.mem_map_of_mem (List.mem_filter.mp pendingTax).1
    have output := (planned.1 _ intent).output
    have stillOut : answer.drift swap.intent.tokenOut = 0 := still answer among _ (Or.inr (Or.inr output))
    have payable : swap.intent.tokenOut ≠ zeroAddress := by rw [output]; exact market.notNative
    rcases inputs _ intent with first | second
    · exact ⟨first ▸ erc20, payable, still answer among _ (Or.inl first), stillOut⟩
    · exact ⟨second ▸ erc20', payable, still answer among _ (Or.inr (Or.inl second)), stillOut⟩
  · have intent : swap.intent ∈ cycle := strategies ▸ List.mem_map_of_mem strategy
    rcases (kind _ intent).sides with ⟨tokenIn, tokenOut⟩ | ⟨tokenIn, tokenOut⟩
    · exact ⟨tokenIn ▸ erc20, tokenOut ▸ erc20', still answer among _ (Or.inl tokenIn), still answer among _ (Or.inr (Or.inl tokenOut))⟩
    · exact ⟨tokenIn ▸ erc20', tokenOut ▸ erc20, still answer among _ (Or.inr (Or.inl tokenIn)), still answer among _ (Or.inl tokenOut)⟩

theorem good_tax {intent : SwapIntent} (tax : TaxSwap market intent) (txIndex : Nat) :
    GoodRecord market job.toJob (planRecord txIndex intent) := by
  refine ⟨fun _ => tax, fun _ strategy => ?_⟩
  change intent.purpose = .strategy at strategy
  rw [tax.purpose] at strategy
  cases strategy

theorem good_strategy {intent : SwapIntent} (kind : StrategyKind job.pair job.handling intent) (txIndex : Nat) :
    GoodRecord market job.toJob (planRecord txIndex intent) := by
  refine ⟨fun tax => ?_, fun reinvest _ => kind.reinvested reinvest⟩
  change intent.purpose = .feeTax at tax
  rw [kind.purpose] at tax
  cases tax

theorem good_records (planned : TaxPlanned market tax) (kind : ∀ swap ∈ cycle, StrategyKind job.pair job.handling swap) :
    ∀ record ∈ (planSlots job.toJob state tax.swaps cycle).records, GoodRecord market job.toJob record := by
  obtain ⟨_, _, _, taxes, strategies⟩ := @planSlots_spec job.toJob state tax.swaps cycle planned.2
  intro record member
  obtain ⟨slot, among, rfl⟩ := List.mem_map.mp member
  rcases List.mem_append.mp among with inTaxes | inStrategies
  · exact good_tax (planned.1 _ (taxes ▸ List.mem_map_of_mem inTaxes : slot.intent ∈ tax.swaps)) slot.txIndex
  · exact good_strategy (kind _ (strategies ▸ List.mem_map_of_mem inStrategies : slot.intent ∈ cycle)) slot.txIndex

theorem cycleSwaps_sound (reflexive : ∀ record, R record record) (sound : Sound R market job chain start)
    (planned : TaxPlanned market tax) (inputs : TaxInputs job.pair tax)
    (rewrites : ∀ cycle, Rewrites R start (planSlots job.toJob start tax.swaps cycle)) (totals : CycleTotals) (answer : WalletReply) :
    Triple (· = start) (cycleSwaps job chain tax totals answer)
      (fun final state => Sound R market job chain state ∧ CycleDone market job chain answer.swaps tax start totals final state)
      (Sound R market job chain) := by
  have stops : ∀ state, state = start → Sound R market job chain state := fun state here => by rw [here]; exact sound
  unfold cycleSwaps
  refine triple_bind (Q := fun _ state => state = start) (triple_reply (fun _ _ here _ => here) fun state _ here _ => stops state here)
    fun units => ?_
  refine triple_bind (Q := fun plan state => (plan.totals = fundTotals job.handling (remainingFunds totals) ∧
      ∀ swap ∈ plan.swaps, StrategyKind job.pair job.handling swap) ∧ state = start)
    (triple_reply (fun _ _ here made => ⟨planCycleSwaps_kind made, here⟩) fun state _ here _ => stops state here)
    fun plan => triple_assume fun made => ?_
  obtain ⟨from_, kind⟩ := made
  refine triple_bind (Q := fun _ state => state = start) (triple_reply (fun _ _ here _ => here) fun state _ here _ => stops state here)
    fun _ => triple_bind (Q := fun found state => found = start ∧ state = start) (triple_read fun _ here => ⟨here, here⟩)
    fun found => triple_assume fun here => ?_
  subst here
  dsimp only
  let slots := planSlots job.toJob found tax.swaps plan.swaps
  obtain ⟨_, _, distinct, _⟩ := @planSlots_spec job.toJob found tax.swaps plan.swaps planned.2
  have goods : ∀ record ∈ slots.records, GoodRecord market job.toJob record := good_records planned kind
  have recorded : Sound R market job chain (written found slots.records) := sound.written goods (rewrites plan.swaps)
  refine triple_bind (Q := fun _ state => state = written found slots.records) (triple_write fun _ here => by rw [here]; rfl)
    fun _ => triple_bind (Q := fun _ state => state = written found slots.records)
      (triple_reply (fun _ _ here _ => here) fun _ _ here _ => by rw [here]; exact recorded) fun _ => ?_
  have free : ∀ swap ∈ slots.pending, Free found swap.txIndex := pending_free sound.intact planned.2
  refine triple_weaken (sendPending_sound reflexive recorded _ plan.totals (distinct.sublist (pending_sublist slots)) ?_)
    (fun _ here => here) ?_ fun _ stopped => stopped
  · intro swap member
    exact ⟨free swap member, written_record distinct member, goods _ (List.mem_map_of_mem ((pending_sublist slots).subset member))⟩
  · rintro final state ⟨stateSound, loop⟩
    obtain ⟨new, grown, placed, total⟩ := loop.settled
    refine ⟨stateSound, loop.audits, loop.tax, fun settled member => ?_, new, grown, fun swap member => (placed swap member).2, fun calm => ?_⟩
    · -- the loop leaves the slot of a settled swap alone: only the records of the attempt may be in it
      have frame := loop.plan settled.row.txIndex fun swap pending => free swap pending settled member
      rw [frame]
      by_cases given : ∃ record ∈ slots.records, settled.row.txIndex = record.txIndex
      · obtain ⟨record, among, same⟩ := given
        obtain ⟨intent, inTax, is, _⟩ := settled_slot sound.intact planned member among same
        refine Or.inr ⟨intent, inTax, ?_⟩
        have apart : slots.records.Pairwise fun first second => first.txIndex ≠ second.txIndex := List.pairwise_map.mpr distinct
        rw [← is, same]
        exact Table.get?_foldl_put_of_mem apart among
      · refine Or.inl (Table.get?_foldl_put_other fun record among same => given ⟨record, among, same⟩)
    · obtain ⟨effects, each⟩ := total (calm_pending calm planned inputs kind)
      exact ⟨by rw [effects, from_], each⟩

theorem burnEmpty_same (burn : Option Send) : Keeps (SwapsSame job.toJob start) (burnEmpty job chain burn) := by
  cases burn with
  | none => exact keeps_pure ()
  | some send => exact keeps_bind keeps_read fun state => keeps_tolerate (trackedSend_same (by decide) _ send)

theorem CycleDone.of_same {totals final : CycleTotals} {middle : JobState}
    (done : CycleDone market job chain answers tax middle totals final state) (same : SwapsSame job.toJob start middle) :
    CycleDone market job chain answers tax start totals final state := by
  obtain ⟨audits, feeTax, rewritten, settled⟩ := done
  rw [same.settled] at rewritten settled
  rw [same.plan] at rewritten
  exact ⟨audits.trans same.audits, feeTax.trans same.tax, rewritten, settled⟩

def Taxed (market : Market) (job : RebalanceJob) (quote : QuoteFn) (start : JobState) (tax : FeeTaxPlan) (context : FeeTaxContext) : Prop :=
  ensureFeeTaxPlan market quote start.feeTax (confirmedSwapExists job.toJob start) job.pair job.funds.fee0 job.funds.fee1
    job.rewardQuote = .ok (tax, context)

theorem ensureTax_run (quote : QuoteFn) :
    Triple (· = start) (ensureTax job.toJob market quote job.funds.fee0 job.funds.fee1)
      (fun tax state => ∃ context, Taxed market job quote start tax context ∧ state = { start with feeTax := some context })
      (· = start) := by
  rintro state rfl
  unfold ensureTax
  rw [run_bind_ok (run_read state), bind_run]
  unfold reply
  dsimp only
  cases ensured : ensureFeeTaxPlan market quote state.feeTax (confirmedSwapExists job.toJob state) job.pair job.funds.fee0
      job.funds.fee1 job.rewardQuote with
  | error e => exact rfl
  | ok result => exact ⟨result.2, ensured, rfl⟩

theorem Sound.taxStored (sound : Sound R market job chain start) {quote : QuoteFn} {context : FeeTaxContext}
    (taxed : Taxed market job quote start tax context) : Sound R market job chain { start with feeTax := some context } := by
  obtain ⟨intact, records, audited, within⟩ := sound
  refine ⟨intact.slotsSame ⟨fun _ => rfl, rfl, rfl⟩, records, audited, fun found same => ?_⟩
  cases same
  exact ensureFeeTaxPlan_within within taxed

/-- What an attempt deploys: the replay of the confirmed swaps, and the swaps it sends on what that leaves. -/
structure Deploys (market : Market) (job : RebalanceJob) (chain : ChainFacts job.owner) (context : PrecheckContext)
    (answer : WalletReply) (start : JobState) (tax : FeeTaxPlan) (stored : FeeTaxContext) (base final : CycleTotals)
    (state : JobState) : Prop where
  taxed : Taxed market job answer.taxQuotes start tax stored
  replayed : applyExecutedSwaps job.toJob chain
    (deployableFunds job context tax.fee0AfterTax tax.fee1AfterTax tax.rewardAfterTax) { start with feeTax := some stored } = .ok base
  cycle : CycleDone market job chain answer.swaps tax { start with feeTax := some stored } base final state

def AttemptRewrites (R : SwapPlanRecord → SwapPlanRecord → Prop) (market : Market) (job : RebalanceJob)
    (chain : ChainFacts job.owner) (quote : QuoteFn) (start : JobState) : Prop :=
  ∀ tax stored state, Taxed market job quote start tax stored → Sound R market job chain state → state.swapPlan = start.swapPlan →
    state.settled = start.settled → ∀ cycle, Rewrites R state (planSlots job.toJob state tax.swaps cycle)

theorem swapPhase_sound (reflexive : ∀ record, R record record) (sound : Sound R market job chain start) {answer : WalletReply}
    (rewrites : AttemptRewrites R market job chain answer.taxQuotes start) (context : PrecheckContext) :
    Triple (· = start) (swapPhase market job chain context answer)
      (fun final state => Sound R market job chain state ∧
        ∃ tax stored base, Deploys market job chain context answer start tax stored base final state)
      (Sound R market job chain) := by
  unfold swapPhase
  refine triple_bind (triple_weaken (ensureTax_run answer.taxQuotes) (fun _ here => here) (fun _ _ ran => ran)
    fun state here => by rw [here]; exact sound) fun tax => triple_each fun state ran => ?_
  obtain ⟨stored, taxed, rfl⟩ := ran
  have held := sound.taxStored taxed
  have stops : ∀ state, state = { start with feeTax := some stored } → Sound R market job chain state :=
    fun state here => by rw [here]; exact held
  obtain ⟨planned, _, _⟩ := ensureFeeTaxPlan_spec taxed
  refine triple_bind (Q := fun found state => found = { start with feeTax := some stored } ∧ state = { start with feeTax := some stored })
    (triple_read fun _ here => ⟨here, here⟩) fun found => triple_assume fun here => ?_
  subst here
  refine triple_bind (Q := fun base state => applyExecutedSwaps job.toJob chain
      (deployableFunds job context tax.fee0AfterTax tax.fee1AfterTax tax.rewardAfterTax) { start with feeTax := some stored } = .ok base ∧
      state = { start with feeTax := some stored })
    (triple_reply (fun _ _ here replayed => ⟨replayed, here⟩) fun state _ here _ => stops state here)
    fun base => triple_assume fun replayed => ?_
  refine triple_bind (Q := fun _ state => state = { start with feeTax := some stored })
    (triple_reply (fun _ _ here _ => here) fun state _ here _ => stops state here) fun _ =>
    triple_bind (Q := fun _ state => SwapsSame job.toJob { start with feeTax := some stored } state)
      (triple_reply (fun _ _ here _ => by rw [here]; exact SwapsSame.refl _) fun state _ here _ => stops state here) fun _ => ?_
  refine triple_bind (triple_weaken (burnEmpty_same answer.burn) (fun _ same => same) (fun _ _ same => same)
    fun state same => held.same same) fun _ => triple_each fun middle same => ?_
  have middleSound := held.same same
  refine triple_weaken (cycleSwaps_sound reflexive middleSound planned (ensureFeeTaxPlan_inputs taxed)
    (rewrites tax stored middle taxed middleSound same.plan same.settled) base answer) (fun _ here => here) ?_ fun _ stopped => stopped
  rintro final state ⟨stateSound, cycle⟩
  exact ⟨stateSound, tax, stored, base, taxed, replayed, cycle.of_same same⟩

theorem attemptRewrites_same (quote : QuoteFn) : AttemptRewrites SameSwap market job chain quote start :=
  fun _ _ _ taxed sound _ _ _ => rewrites_same sound (ensureFeeTaxPlan_spec taxed).1

theorem resolveSlots_sound (reflexive : ∀ record, R record record) (landed : Hash → Bool) (sound : Sound R market job chain start) :
    Sound R market job chain (resolveSlots job.toJob chain landed start) := by
  obtain ⟨intact, resolved⟩ := resolveSlots_intact reflexive landed sound.intact
  exact sound.extends intact (fun record member => Or.inl (by rw [resolved.plan] at member; exact member)) resolved.audits
    resolved.tax resolved.kept

theorem mintPhase_same (totals : CycleTotals) (answer : WalletReply) :
    Triple (· = start) (mintPhase job chain totals answer)
      (fun _ state => ∃ capital valuation, planCapitalHarvest totals.lp0 totals.lp1 valuation = .ok capital ∧
        SwapsSame job.toJob { start with capital := some capital } state)
      (fun state => state = start ∨ ∃ capital valuation, planCapitalHarvest totals.lp0 totals.lp1 valuation = .ok capital ∧
        SwapsSame job.toJob { start with capital := some capital } state) := by
  unfold mintPhase
  refine triple_bind (Q := fun _ state => state = start) (triple_reply (fun _ _ here _ => here) fun _ _ here _ => Or.inl here)
    fun _ => triple_bind (Q := fun _ state => state = start) (triple_reply (fun _ _ here _ => here) fun _ _ here _ => Or.inl here)
    fun valuation => triple_bind (Q := fun capital state =>
      planCapitalHarvest totals.lp0 totals.lp1 valuation = .ok capital ∧ state = start)
    (triple_reply (fun _ _ here planned => ⟨planned, here⟩) fun _ _ here _ => Or.inl here) fun capital => triple_assume fun planned => ?_
  refine triple_bind (Q := fun _ state => SwapsSame job.toJob { start with capital := some capital } state)
    (triple_write fun _ here => by rw [here]; exact SwapsSame.refl _) fun _ => ?_
  refine triple_weaken (Q := fun _ state => SwapsSame job.toJob { start with capital := some capital } state)
    (E := SwapsSame job.toJob { start with capital := some capital }) ?_ (fun _ same => same)
    (fun _ _ same => ⟨capital, valuation, planned, same⟩) fun _ same => Or.inr ⟨capital, valuation, planned, same⟩
  change Keeps (SwapsSame job.toJob { start with capital := some capital }) _
  refine keeps_bind (allowancesAt_same (by decide) _) fun _ => keeps_bind (allowancesAt_same (by decide) _) fun _ => ?_
  refine keeps_bind (keeps_reply _) fun mint => keeps_bind keeps_read fun state => ?_
  refine keeps_bind (trackedSend_same (by decide) _ mint) fun _ => keeps_bind (keeps_reply _) fun _ => ?_
  exact keeps_bind (allowancesAt_same (by decide) _) fun _ => allowancesAt_same (by decide) _

theorem Sound.capital (sound : Sound R market job chain start) (capital : Option CapitalHarvestPlan) :
    Sound R market job chain { start with capital } := by
  obtain ⟨intact, records, audited, taxed⟩ := sound
  exact ⟨intact.slotsSame ⟨fun _ => rfl, rfl, rfl⟩, records, audited, taxed⟩

theorem commitMint_same (context : PrecheckContext) (value : Hash → Nat) (minted : Except ErrorCode Unit) (others : Address → ℤ) :
    Keeps (· = start) (commitMint job chain context value minted others) := by
  refine keeps_bind keeps_read fun state => ?_
  split
  · exact keeps_fail _
  · exact keeps_bind (keeps_reply _) fun facts => keeps_bind (keeps_reply _) fun _ => keeps_reply _

theorem finishFromWallet_sound (reflexive : ∀ record, R record record) (sound : Sound R market job chain start)
    {answer : WalletReply} (rewrites : AttemptRewrites R market job chain answer.taxQuotes start) (context : PrecheckContext)
    (value : Hash → Nat) :
    Triple (· = start) (finishFromWallet market job chain context value answer) (fun _ => Sound R market job chain)
      (Sound R market job chain) := by
  unfold finishFromWallet
  refine triple_bind (swapPhase_sound reflexive sound rewrites context) fun totals => triple_each fun deployed swaps => ?_
  obtain ⟨deployedSound, _⟩ := swaps
  have minted : ∀ state, (∃ capital valuation, planCapitalHarvest totals.lp0 totals.lp1 valuation = .ok capital ∧
      SwapsSame job.toJob { deployed with capital := some capital } state) → Sound R market job chain state := by
    rintro state ⟨capital, _, _, same⟩
    exact (deployedSound.capital (some capital)).same same
  refine triple_bind (triple_weaken (mintPhase_same totals answer) (fun _ here => here) (fun _ state done => minted state done)
    fun state stopped => ?_) fun _ => triple_each fun final finalSound => ?_
  · rcases stopped with rfl | done
    · exact deployedSound
    · exact minted state done
  · refine triple_weaken (@commitMint_same _ _ final context value answer.minted answer.otherAllocations)
      (fun _ here => here) (fun _ state here => ?_) fun state here => ?_
    · rw [here]
      exact finalSound
    · rw [here]
      exact finalSound

theorem afterAttempt_sound (reflexive : ∀ record, R record record) (sound : Sound R market job chain start)
    {context : PrecheckContext} {value : Hash → Nat} {input : Attempt}
    (rewrites : AttemptRewrites R market job chain input.answer.taxQuotes (resolveSlots job.toJob chain input.landed start)) :
    Sound R market job chain (afterAttempt market job chain context value start input) :=
  left_keeps (finishFromWallet_sound reflexive (resolveSlots_sound reflexive input.landed sound) rewrites context value) rfl

theorem attempts_sound (sound : Sound SameSwap market job chain start) {context : PrecheckContext} {value : Hash → Nat}
    (inputs : List Attempt) : Sound SameSwap market job chain (run (afterAttempt market job chain context value) start inputs) := by
  have step : ∀ state input, Sound SameSwap market job chain state →
      Sound SameSwap market job chain (afterAttempt market job chain context value state input) :=
    fun _ _ kept => afterAttempt_sound sameSwap_refl kept (attemptRewrites_same _)
  exact run_keeps_all step sound inputs

end

end LpTerminal.WalletRun
