import LpTerminal.Recovery.WalletRun

/-!
What the swaps of an attempt leave of the slots that hold a confirmed swap. Each swap is sent in a slot of its own, and the
record of every other slot stays as it is.
-/

namespace LpTerminal.KeptSlots

open Durable FeeTax FromWallet Rebalance Receipts SettledSwaps Store SwapJob SwapLegs WalletRun WalletSlots

def PurposesKept (start state : JobState) : Prop :=
  ∀ txIndex record, start.swapPlan.get? txIndex = some record →
    ∃ later, state.swapPlan.get? txIndex = some later ∧ later.purpose = record.purpose

/-- Every confirmed swap still has its row and its record, and the ones confirmed before are among them. -/
structure Grown (job : Job) (chain : ChainFacts job.owner) (start state : JobState) : Prop where
  intact : Intact (· = ·) job chain state
  kept : ∀ swap ∈ start.settled, swap ∈ state.settled
  purposes : PurposesKept start state

/-- The swaps of these slots alone were written, sent and settled. -/
structure Slotted (job : Job) (chain : ChainFacts job.owner) (taken : Nat → Prop) (start state : JobState) : Prop
    extends Grown job chain start state where
  plan : ∀ txIndex, ¬ taken txIndex → state.swapPlan.get? txIndex = start.swapPlan.get? txIndex
  settled : ∀ swap ∈ state.settled, swap ∈ start.settled ∨ taken swap.row.txIndex

/-- A slot that is handed to a swap of this purpose: not confirmed, and not recorded for another purpose. -/
structure Open (job : Job) (state : JobState) (txIndex : Nat) (purpose : SwapPurpose) : Prop where
  unconfirmed : Unconfirmed state (swapSlot job txIndex)
  purpose : ∀ record, state.swapPlan.get? txIndex = some record → record.purpose = purpose

section
variable {job : Job} {chain : ChainFacts job.owner} {start state : JobState} {txIndex : Nat} {taken more : Nat → Prop}
  {purpose : SwapPurpose}

theorem purposesKept_plan (same : state.swapPlan = start.swapPlan) : PurposesKept start state := by
  intro txIndex record found
  exact ⟨record, by rw [same]; exact found, rfl⟩

variable {middle : JobState}

theorem PurposesKept.trans (first : PurposesKept start middle) (second : PurposesKept middle state) :
    PurposesKept start state := by
  intro txIndex record found
  obtain ⟨next, read, same⟩ := first txIndex record found
  obtain ⟨later, reads, still⟩ := second txIndex next read
  exact ⟨later, reads, still.trans same⟩

theorem Grown.trans (first : Grown job chain start middle) (second : Grown job chain middle state) :
    Grown job chain start state where
  intact := second.intact
  kept swap member := second.kept swap (first.kept swap member)
  purposes := first.purposes.trans second.purposes

section

variable (intact : Intact (· = ·) job chain start)
include intact

theorem Grown.same (same : SlotsSame job start state) : Grown job chain start state where
  intact := intact.slotsSame same
  kept swap member := by rw [same.settled]; exact member
  purposes := purposesKept_plan same.plan

theorem Grown.refl : Grown job chain start start :=
  Grown.same intact ⟨fun _ => rfl, rfl, rfl⟩

theorem Slotted.same (same : SlotsSame job start state) : Slotted job chain taken start state where
  toGrown := Grown.same intact same
  plan _ _ := by rw [same.plan]
  settled swap member := Or.inl (by rw [same.settled] at member; exact member)

theorem Slotted.refl : Slotted job chain taken start start :=
  Slotted.same intact ⟨fun _ => rfl, rfl, rfl⟩

end

theorem Slotted.trans (first : Slotted job chain taken start middle) (second : Slotted job chain taken middle state) :
    Slotted job chain taken start state := by
  refine ⟨first.toGrown.trans second.toGrown, fun other aside => (second.plan other aside).trans (first.plan other aside),
    fun swap member => ?_⟩
  rcases second.settled swap member with old | new
  · exact first.settled swap old
  · exact Or.inr new

theorem Slotted.mono (slotted : Slotted job chain taken start state) (among : ∀ txIndex, taken txIndex → more txIndex) :
    Slotted job chain more start state where
  toGrown := slotted.toGrown
  plan other aside := slotted.plan other fun inside => aside (among other inside)
  settled swap member := (slotted.settled swap member).imp_right (among _)

theorem Slotted.free (slotted : Slotted job chain taken start state) (free : Free start txIndex) (aside : ¬ taken txIndex) :
    Free state txIndex := by
  rintro swap member rfl
  rcases slotted.settled swap member with old | new
  · exact free swap old rfl
  · exact aside new

theorem Open.free (open_ : Open job start txIndex purpose) (intact : Intact (· = ·) job chain start) : Free start txIndex :=
  intact.free open_.unconfirmed

theorem Slotted.open_ (slotted : Slotted job chain taken start state) (intact : Intact (· = ·) job chain start)
    (open_ : Open job start txIndex purpose) (aside : ¬ taken txIndex) : Open job state txIndex purpose where
  unconfirmed := slotted.intact.unconfirmed (slotted.free (open_.free intact) aside)
  purpose := by rw [slotted.plan txIndex aside]; exact open_.purpose

theorem open_after (intact : Intact (· = ·) job chain start) (after : afterRecords start ≤ txIndex) : Open job start txIndex purpose where
  unconfirmed := intact.unconfirmed (intact.free_after after)
  purpose record read := by
    have below := le_afterRecords (Table.get?_mem read)
    rw [Table.get?_key read] at below
    omega

theorem slotted_then {α : Type} {m : Durable ErrorCode JobState α} (same : ∀ middle, Keeps (SwapsSame job middle) m) :
    Keeps (Slotted job chain taken start) m := by
  refine triple_each fun middle slotted => ?_
  have after : ∀ state, SwapsSame job middle state → Slotted job chain taken start state :=
    fun state left => slotted.trans (Slotted.same slotted.intact left.slots)
  exact triple_weaken (same middle) (fun _ here => by rw [here]; exact SwapsSame.refl _) (fun _ state left => after state left) after

theorem Slotted.recorded (intact : Intact (· = ·) job chain start) (record : SwapPlanRecord) (free : Free start record.txIndex)
    (purpose : ∀ old, start.swapPlan.get? record.txIndex = some old → old.purpose = record.purpose) :
    Slotted job chain (· = record.txIndex) start (withRecord start record) := by
  refine ⟨⟨intact.recorded fun swap member same => absurd same (free swap member), fun _ member => member, fun other old read => ?_⟩,
    fun other aside => Table.get?_put_other aside, fun _ member => Or.inl member⟩
  by_cases own : other = record.txIndex
  · subst own
    exact ⟨record, Table.get?_put_same start.swapPlan record, (purpose old read).symm⟩
  · exact ⟨old, (Table.get?_put_other own).trans read, rfl⟩

variable {record : SwapPlanRecord}

theorem Slotted.refreshed (intact : Intact (· = ·) job chain start) (read : start.swapPlan.get? txIndex = some record)
    (free : Free start txIndex) (prepared : PreparedSwap) :
    Slotted job chain (· = txIndex) start (withRecord start (SettledSwaps.refreshed record prepared)) := by
  have index : record.txIndex = txIndex := Table.get?_key read
  subst index
  refine Slotted.recorded intact (SettledSwaps.refreshed record prepared) free fun old found => ?_
  rw [show (SettledSwaps.refreshed record prepared).txIndex = record.txIndex from rfl, read] at found
  cases found
  rfl

theorem SentFrom.slotted (sent : SentFrom txIndex record start state) (intact : Intact (· = ·) job chain state) :
    Slotted job chain (· = txIndex) start state := by
  refine ⟨⟨intact, WalletRun.SentFrom.kept sent, purposesKept_plan sent.plan⟩, fun _ _ => by rw [sent.plan], fun swap member => ?_⟩
  rcases sent.settled with same | ⟨row, index, more⟩
  · rw [same] at member
    exact Or.inl member
  · rw [more] at member
    rcases List.mem_cons.mp member with rfl | old
    · exact Or.inr index
    · exact Or.inl old

theorem sendRecoverySwap_slotted (intact : Intact (· = ·) job chain start) (free : Free start txIndex) (intent : SwapIntent)
    (prepared : PreparedSwap) (send : Send) :
    Triple (· = start) (sendRecoverySwap job chain txIndex intent prepared send) (fun _ => Slotted job chain (· = txIndex) start)
      (Slotted job chain (· = txIndex) start) := by
  have refreshes : ∀ {record state}, start.swapPlan.get? txIndex = some record → Intact (· = ·) job chain state →
      SentFrom txIndex (SettledSwaps.refreshed record prepared) (withRecord start (SettledSwaps.refreshed record prepared)) state →
      Slotted job chain (· = txIndex) start state :=
    fun read kept sent => (Slotted.refreshed intact read free prepared).trans (SentFrom.slotted sent kept)
  refine triple_weaken (sendRecoverySwap_swap (fun _ => rfl) intact free intent prepared send) (fun _ here => here) ?_ ?_
  · rintro receipt state ⟨kept, record, read, sent, _⟩
    exact refreshes read kept sent
  · rintro state ⟨kept, unwritten | ⟨record, read, sent⟩⟩
    · exact SentFrom.slotted unwritten kept
    · exact refreshes read kept sent

theorem free_record (intact : Intact (· = ·) job chain start) {leg : SwapLeg} {record : SwapPlanRecord}
    (found : leg.record start = some record) (unconfirmed : leg.confirmed job chain start = none) : Free start record.txIndex := by
  refine intact.free fun row read confirmed => ?_
  obtain ⟨swap, member, rfl⟩ := intact.complete record.txIndex row read confirmed
  obtain ⟨hash, hashed, _⟩ := (intact.held swap member).succeeded
  unfold SwapLeg.confirmed confirmedSwap? at unconfirmed
  rw [found] at unconfirmed
  dsimp only at unconfirmed
  rw [read] at unconfirmed
  dsimp only at unconfirmed
  rw [if_pos confirmed, hashed] at unconfirmed
  cases unconfirmed

def OwnPurpose (leg : SwapLeg) : Prop := ∀ record, leg.reuses record = true → record.purpose = leg.intent.purpose

theorem leg_recorded (intact : Intact (· = ·) job chain start) {leg : SwapLeg} (own : OwnPurpose leg) {next : Nat}
    (fresh : leg.record start = none → Open job start next leg.intent.purpose) (unconfirmed : leg.confirmed job chain start = none)
    (quotedOut : Nat) :
    Free start (leg.slot start next) ∧ Slotted job chain (· = leg.slot start next) start
      (withRecord start (planRecord (leg.slot start next) { leg.intent with quotedOut := quotedOut })) := by
  have written : ∀ {slot}, Free start slot → (∀ old, start.swapPlan.get? slot = some old → old.purpose = leg.intent.purpose) →
      Slotted job chain (· = slot) start (withRecord start (planRecord slot { leg.intent with quotedOut := quotedOut })) :=
    fun free purpose => Slotted.recorded intact (planRecord _ _) free purpose
  unfold SwapLeg.slot
  cases found : leg.record start with
  | none =>
    have open_ := fresh found
    exact ⟨open_.free intact, written (open_.free intact) open_.purpose⟩
  | some record =>
    have free := free_record intact found unconfirmed
    refine ⟨free, written free fun old read => ?_⟩
    have same : old = record := Option.some.inj (read.symm.trans (Table.get?_of_mem (List.mem_of_find?_eq_some found)))
    rw [same]
    exact own record (List.find?_some found)

theorem executeLeg_slotted (intact : Intact (· = ·) job chain start) (free : Free start txIndex) (leg : SwapLeg) (next : Nat)
    (answer : LegReply) :
    Triple (· = start) (executeLeg job chain leg txIndex next answer)
      (fun result state => result.nextSwapTx = next ∧ Slotted job chain (· = txIndex) start state)
      (Slotted job chain (· = txIndex) start) := by
  have stays : ∀ state, SwapsSame job start state → Slotted job chain (· = txIndex) start state :=
    fun state same => Slotted.same intact same.slots
  unfold executeLeg
  refine triple_bind (triple_weaken (allowancesAt_same (by decide) _) (fun _ here => by rw [here]; exact SwapsSame.refl _)
    (fun _ _ same => same) stays) fun _ => ?_
  refine triple_bind (Q := fun _ state => SwapsSame job start state)
    (triple_reply (fun _ _ same _ => same) fun state _ same _ => stays state same) fun prepared => ?_
  refine triple_each fun found same => triple_read_at ?_
  have onward : ∀ state, Slotted job chain (· = txIndex) found state → Slotted job chain (· = txIndex) start state :=
    fun state slotted => (stays found same).trans slotted
  refine triple_bind (triple_weaken (sendRecoverySwap_slotted (intact.same same) (free.same same) leg.intent prepared answer.send)
    (fun _ here => here) (fun _ state sent => onward state sent) onward) fun receipt => ?_
  refine triple_bind (slotted_then fun _ => driftWallet_same _) fun _ => triple_bind keeps_read fun after => ?_
  refine triple_bind (keeps_reply _) fun _ => triple_bind (slotted_then fun _ => allowancesAt_same (by decide) _) fun _ => ?_
  exact triple_pure fun state slotted => ⟨rfl, slotted⟩

theorem runLeg_slotted (intact : Intact (· = ·) job chain start) {leg : SwapLeg} (own : OwnPurpose leg) {next : Nat} {answer : LegReply}
    (fresh : leg.record start = none → ∀ quotedOut, answer.quote = .ok quotedOut → Open job start next leg.intent.purpose) :
    Triple (· = start) (runLeg job chain leg next answer)
      (fun result state => result.nextSwapTx = leg.advance start next ∧ Slotted job chain (· = leg.slot start next) start state ∧
        (leg.record start = none → ∃ quotedOut, answer.quote = .ok quotedOut))
      (Slotted job chain (· = leg.slot start next) start) := by
  have stays : Slotted job chain (· = leg.slot start next) start start := Slotted.refl intact
  unfold runLeg
  refine triple_read_at ?_
  cases settled : leg.confirmed job chain start with
  | some found =>
    obtain ⟨record, receipt⟩ := found
    refine triple_reply_at (fun execution _ => triple_pure fun state here => ?_) fun _ _ => stays
    rw [here]
    have recorded := (SwapLeg.confirmed_slot settled).1
    refine ⟨?_, stays, fun recordless => by rw [recorded] at recordless; cases recordless⟩
    unfold SwapLeg.advance
    rw [recorded]
  | none =>
    refine triple_reply_at (fun quotedOut quoted => ?_) fun _ _ => stays
    obtain ⟨free, written⟩ := leg_recorded intact own (fun recordless => fresh recordless quotedOut quoted) settled quotedOut
    refine triple_write_at ?_
    -- a record settles nothing: the slot is as free as before
    exact triple_weaken (executeLeg_slotted written.intact free leg (leg.advance start next) answer) (fun _ here => here)
      (fun _ _ done => ⟨done.1, written.trans done.2, fun _ => ⟨quotedOut, quoted⟩⟩) fun _ stopped => written.trans stopped

def TaxTakes (gasAdjusted : Bool) (swaps : List SwapIntent) (start : JobState) (next txIndex : Nat) : Prop :=
  ∃ intent ∈ swaps, txIndex = (taxLeg intent gasAdjusted).slot start next

def afterTax (gasAdjusted : Bool) (swaps : List SwapIntent) (start : JobState) (next : Nat) : Nat :=
  (swaps.head?.map fun intent => (taxLeg intent gasAdjusted).advance start next).getD next

theorem taxLeg_own {market : Market} {intent : SwapIntent} (tax : TaxSwap market intent) (gasAdjusted : Bool) :
    OwnPurpose (taxLeg intent gasAdjusted) := by
  intro record reused
  simp only [taxLeg, Bool.and_eq_true, decide_eq_true_eq] at reused
  exact reused.1.1.trans tax.purpose.symm

theorem runTaxLegs_slotted (intact : Intact (· = ·) job chain start) {market : Market} {tax : FeeTaxPlan} (planned : TaxPlanned market tax)
    {gasAdjusted : Bool} {next : Nat} {answers : List LegReply}
    (fresh : ∀ intent ∈ tax.swaps, (taxLeg intent gasAdjusted).record start = none →
      ∀ answer quotedOut, answers.head? = some answer → answer.quote = .ok quotedOut → Open job start next .feeTax) :
    Triple (· = start) (runTaxLegs job chain gasAdjusted next tax.swaps answers)
      (fun result state => result.2 = afterTax gasAdjusted tax.swaps start next ∧
        Slotted job chain (TaxTakes gasAdjusted tax.swaps start next) start state ∧
        ∀ intent ∈ tax.swaps, (taxLeg intent gasAdjusted).record start = none →
          ∃ answer quotedOut, answers.head? = some answer ∧ answer.quote = .ok quotedOut)
      (Slotted job chain (TaxTakes gasAdjusted tax.swaps start next) start) := by
  obtain ⟨kind, single⟩ := planned
  match swaps : tax.swaps, single with
  | [], _ =>
    refine triple_pure fun state here => ?_
    rw [here]
    exact ⟨rfl, Slotted.refl intact, fun _ member => absurd member List.not_mem_nil⟩
  | [intent], _ =>
    rw [swaps] at kind fresh
    have tax := kind intent List.mem_cons_self
    cases answers with
    | nil => exact triple_fail fun state here => by rw [here]; exact Slotted.refl intact
    | cons answer later =>
      have mine : ∀ state, Slotted job chain (· = (taxLeg intent gasAdjusted).slot start next) start state →
          Slotted job chain (TaxTakes gasAdjusted [intent] start next) start state :=
        fun state slotted => slotted.mono fun txIndex same => ⟨intent, List.mem_cons_self, same⟩
      have open_ : (taxLeg intent gasAdjusted).record start = none → ∀ quotedOut, answer.quote = .ok quotedOut →
          Open job start next (taxLeg intent gasAdjusted).intent.purpose := by
        intro recordless quotedOut quoted
        rw [show (taxLeg intent gasAdjusted).intent.purpose = .feeTax from tax.purpose]
        exact fresh intent List.mem_cons_self recordless answer quotedOut rfl quoted
      unfold runTaxLegs
      refine triple_bind (triple_weaken (runLeg_slotted intact (taxLeg_own tax gasAdjusted) open_) (fun _ here => here)
        (fun _ _ done => done) mine) fun result => ?_
      refine triple_pure fun state done => ⟨done.1, mine state done.2.1, fun other member recordless => ?_⟩
      rw [List.mem_singleton.mp member] at recordless
      obtain ⟨quotedOut, quoted⟩ := done.2.2 recordless
      exact ⟨answer, quotedOut, rfl, quoted⟩

theorem afterTax_aside {market : Market} {tax : FeeTaxPlan} (planned : TaxPlanned market tax) {gasAdjusted : Bool} {next : Nat}
    (open_ : Open job start (afterTax gasAdjusted tax.swaps start next) .strategy) :
    ¬ TaxTakes gasAdjusted tax.swaps start next (afterTax gasAdjusted tax.swaps start next) := by
  obtain ⟨kind, single⟩ := planned
  match swaps : tax.swaps, single with
  | [], _ =>
    rintro ⟨intent, member, _⟩
    cases member
  | [intent], _ =>
    rw [swaps] at open_ kind
    rintro ⟨other, member, same⟩
    cases List.mem_singleton.mp member
    change (taxLeg intent gasAdjusted).advance start next = (taxLeg intent gasAdjusted).slot start next at same
    have open_ : Open job start ((taxLeg intent gasAdjusted).advance start next) .strategy := open_
    cases found : (taxLeg intent gasAdjusted).record start with
    | none =>
      unfold SwapLeg.advance SwapLeg.slot at same
      rw [found] at same
      exact Nat.succ_ne_self _ same
    | some record =>
      rw [same] at open_
      unfold SwapLeg.slot at open_
      rw [found] at open_
      have strategy := open_.purpose record (Table.get?_of_mem (List.mem_of_find?_eq_some found))
      have own := taxLeg_own (kind intent List.mem_cons_self) gasAdjusted record (List.find?_some found)
      rw [strategy] at own
      exact absurd (own.trans (kind intent List.mem_cons_self).purpose) (by decide)

theorem le_afterTax (gasAdjusted : Bool) (swaps : List SwapIntent) (start : JobState) (next : Nat) :
    next ≤ afterTax gasAdjusted swaps start next := by
  cases swaps with
  | nil => exact le_rfl
  | cons intent rest =>
    show next ≤ (taxLeg intent gasAdjusted).advance start next
    unfold SwapLeg.advance
    split
    · exact le_rfl
    · exact Nat.le_succ next

end

end LpTerminal.KeptSlots
