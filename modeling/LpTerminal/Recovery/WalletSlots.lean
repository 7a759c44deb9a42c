import LpTerminal.Recovery.FromWallet

/-!
The slots of a recovered rebalance: each swap gets one that no settled swap and no other swap of the
attempt holds.
-/

namespace LpTerminal.WalletSlots

open Durable Fallible FeeTax FromWallet Rebalance Receipts SettledSwaps Store SwapJob SwapLegs SwapReplay

def DistinctSlots (swaps : List SlottedSwap) : Prop :=
  swaps.Pairwise fun first second => first.txIndex ≠ second.txIndex

theorem strategySlots_spec {reusable : List SwapPlanRecord} {next : Nat} {intents : List SwapIntent}
    (apart : reusable.Pairwise fun first second => first.txIndex ≠ second.txIndex) (below : ∀ record ∈ reusable, record.txIndex < next) :
    (∀ swap ∈ strategySlots reusable next intents, (∃ record ∈ reusable, record.txIndex = swap.txIndex) ∨ next ≤ swap.txIndex) ∧
      DistinctSlots (strategySlots reusable next intents) ∧
      (strategySlots reusable next intents).map SlottedSwap.intent = intents := by
  induction intents generalizing reusable next with
  | nil => exact ⟨fun _ member => absurd member List.not_mem_nil, List.Pairwise.nil, rfl⟩
  | cons intent rest ih =>
    unfold strategySlots
    cases found : reusable.find? (reusesTokens intent) with
    | none =>
      obtain ⟨slots, distinct, intents⟩ := ih apart fun record member => (below record member).trans (Nat.lt_succ_self next)
      dsimp only
      refine ⟨fun swap member => ?_, List.pairwise_cons.mpr ⟨fun swap member => ?_, distinct⟩, by rw [List.map_cons, intents]⟩
      · rcases List.mem_cons.mp member with rfl | later
        · exact Or.inr (Nat.le_refl _)
        · rcases slots swap later with reused | fresh
          · exact Or.inl reused
          · exact Or.inr (Nat.le_of_succ_le fresh)
      · rcases slots swap member with ⟨record, among, same⟩ | fresh
        · have before := below record among
          rw [← same]
          exact before.ne'
        · exact (Nat.lt_of_succ_le fresh).ne
    | some record =>
      have member := List.mem_of_find?_eq_some found
      -- what stays reusable is the rest of the records, each with a slot of its own
      obtain ⟨first, front, back, unmatched, matched, split, erased⟩ := List.exists_of_eraseP member (List.find?_some found)
      have same : first = record := by
        rw [split, List.find?_append, List.find?_eq_none.mpr unmatched, List.find?_cons_of_pos matched] at found
        exact Option.some.inj found
      subst same
      rw [split] at apart
      obtain ⟨frontApart, backApart, across⟩ := List.pairwise_append.mp apart
      obtain ⟨ahead, backApart⟩ := List.pairwise_cons.mp backApart
      have others : ∀ other ∈ front ++ back, other.txIndex ≠ first.txIndex := by
        intro other among
        rcases List.mem_append.mp among with inFront | inBack
        · exact across other inFront first List.mem_cons_self
        · exact (ahead other inBack).symm
      have stillApart : (front ++ back).Pairwise fun first second => first.txIndex ≠ second.txIndex :=
        List.pairwise_append.mpr ⟨frontApart, backApart, fun left inFront right inBack =>
          across left inFront right (List.mem_cons_of_mem _ inBack)⟩
      have among : ∀ other ∈ front ++ back, other ∈ reusable := by
        intro other inRest
        rw [split]
        rcases List.mem_append.mp inRest with inFront | inBack
        · exact List.mem_append_left _ inFront
        · exact List.mem_append_right _ (List.mem_cons_of_mem _ inBack)
      obtain ⟨slots, distinct, intents⟩ := ih stillApart fun other inRest => below other (among other inRest)
      dsimp only
      rw [erased]
      refine ⟨fun swap inSlots => ?_, List.pairwise_cons.mpr ⟨fun swap later => ?_, distinct⟩, by rw [List.map_cons, intents]⟩
      · rcases List.mem_cons.mp inSlots with rfl | later
        · exact Or.inl ⟨first, member, rfl⟩
        · rcases slots swap later with ⟨other, inRest, same⟩ | fresh
          · exact Or.inl ⟨other, among other inRest, same⟩
          · exact Or.inr fresh
      · rcases slots swap later with ⟨other, inRest, same⟩ | fresh
        · rw [← same]
          exact (others other inRest).symm
        · exact (Nat.lt_of_lt_of_le (below first member) fresh).ne

theorem skipTaken_free {taken : List Nat} {left next : Nat} (free : next ∉ taken) : skipTaken taken left next = next := by
  cases left with
  | zero => rfl
  | succ left => exact if_neg free

section
variable {R : SwapPlanRecord → SwapPlanRecord → Prop} {job : Job} {chain : ChainFacts job.owner} {state : JobState}
variable {taxSwaps cycleSwaps : List SwapIntent}

theorem reusable_apart : (reusableRecords job state).Pairwise fun first second => first.txIndex ≠ second.txIndex :=
  (state.swapPlan.sorted.imp fun before => before.ne).sublist List.filter_sublist

def TaxSlot (job : Job) (state : JobState) (swap : SlottedSwap) : Prop :=
  (∃ record, state.swapPlan.rows.find? (taxLeg swap.intent false).reuses = some record ∧ record.txIndex = swap.txIndex) ∨
    swap.txIndex = firstFresh job state

def StrategySlot (job : Job) (state : JobState) (swap : SlottedSwap) : Prop :=
  (∃ record ∈ reusableRecords job state, record.txIndex = swap.txIndex) ∨ firstFresh job state ≤ swap.txIndex

theorem below_fresh {record : SwapPlanRecord} (member : record ∈ state.swapPlan.rows) : record.txIndex < firstFresh job state :=
  (le_afterRecords member).trans_le (le_max_right _ _)

theorem planSlots_spec (single : taxSwaps.length ≤ 1) :
    (∀ swap ∈ (planSlots job state taxSwaps cycleSwaps).taxes, TaxSlot job state swap) ∧
      (∀ swap ∈ (planSlots job state taxSwaps cycleSwaps).strategies, StrategySlot job state swap) ∧
      DistinctSlots ((planSlots job state taxSwaps cycleSwaps).taxes ++ (planSlots job state taxSwaps cycleSwaps).strategies) ∧
      (planSlots job state taxSwaps cycleSwaps).taxes.map SlottedSwap.intent = taxSwaps ∧
      (planSlots job state taxSwaps cycleSwaps).strategies.map SlottedSwap.intent = cycleSwaps := by
  have below : ∀ record ∈ reusableRecords job state, record.txIndex < firstFresh job state :=
    fun record member => below_fresh (List.mem_filter.mp member).1
  have strategies : ∀ next, firstFresh job state ≤ next →
      (∀ swap ∈ strategySlots (reusableRecords job state) next cycleSwaps,
        (∃ record ∈ reusableRecords job state, record.txIndex = swap.txIndex) ∨ next ≤ swap.txIndex) ∧
        DistinctSlots (strategySlots (reusableRecords job state) next cycleSwaps) ∧
        (strategySlots (reusableRecords job state) next cycleSwaps).map SlottedSwap.intent = cycleSwaps :=
    fun next after => strategySlots_spec reusable_apart fun record member => (below record member).trans_le after
  match taxSwaps, single with
  | [], _ =>
    obtain ⟨slots, distinct, intents⟩ := strategies (firstFresh job state) (Nat.le_refl _)
    exact ⟨fun _ member => absurd member List.not_mem_nil, slots, distinct, rfl, intents⟩
  | [intent], _ =>
    unfold planSlots taxSlots
    cases found : state.swapPlan.rows.find? (taxLeg intent false).reuses with
    | some record =>
      have member := List.mem_of_find?_eq_some found
      have own : record.txIndex < firstFresh job state := below_fresh member
      obtain ⟨slots, distinct, intents⟩ := strategies (firstFresh job state) (Nat.le_refl _)
      have skipped : skipTaken ([SlottedSwap.mk intent record.txIndex].map SlottedSwap.txIndex) (0 + 1) (firstFresh job state) =
          firstFresh job state := skipTaken_free fun taken => own.ne' (List.mem_singleton.mp taken)
      dsimp only [taxSlots, List.length_cons, List.length_nil]
      rw [skipped]
      refine ⟨fun swap among => ?_, slots, List.pairwise_cons.mpr ⟨fun swap among => ?_, distinct⟩, rfl, intents⟩
      · cases List.mem_singleton.mp among
        exact Or.inl ⟨record, found, rfl⟩
      · rcases slots swap among with ⟨other, reusable, same⟩ | fresh
        · -- the records of a tax swap and of a strategy swap are different ones
          intro clash
          have kept := List.mem_filter.mp reusable
          have equal : record = other := Table.eq_of_key member kept.1 (clash.trans same.symm)
          have purpose := List.find?_some found
          rw [equal] at purpose
          simp only [taxLeg, Bool.and_eq_true, decide_eq_true_eq] at purpose kept
          exact kept.2.1 purpose.1.1
        · exact (own.trans_le fresh).ne
    | none =>
      obtain ⟨slots, distinct, intents⟩ := strategies (firstFresh job state + 1) (Nat.le_succ _)
      have skipped : skipTaken ([SlottedSwap.mk intent (firstFresh job state)].map SlottedSwap.txIndex) (0 + 1)
          (firstFresh job state + 1) = firstFresh job state + 1 :=
        skipTaken_free fun taken => Nat.succ_ne_self _ (List.mem_singleton.mp taken)
      dsimp only [taxSlots, List.length_cons, List.length_nil]
      rw [skipped]
      refine ⟨fun swap among => ?_, fun swap among => ?_, List.pairwise_cons.mpr ⟨fun swap among => ?_, distinct⟩, rfl, intents⟩
      · cases List.mem_singleton.mp among
        exact Or.inr rfl
      · rcases slots swap among with reused | fresh
        · exact Or.inl reused
        · exact Or.inr (Nat.le_of_succ_le fresh)
      · rcases slots swap among with ⟨other, reusable, same⟩ | fresh
        · rw [← same]
          exact (below other reusable).ne'
        · exact (Nat.lt_of_succ_le fresh).ne

theorem mem_confirmedSwaps (intact : Intact R job chain state) {row : JobTransaction} :
    row ∈ confirmedSwaps job state ↔ ∃ swap ∈ state.settled, swap.row = row := by
  unfold confirmedSwaps stepTransactions jobTransactions
  simp only [List.mem_filter, Bool.and_eq_true, decide_eq_true_eq]
  constructor
  · rintro ⟨⟨⟨member, sameJob⟩, sameStep⟩, confirmed, _⟩
    have key : row.key = swapSlot job row.txIndex := slotKey_inj.mpr ⟨sameJob, sameStep, rfl⟩
    exact intact.complete row.txIndex row (key ▸ Table.get?_of_mem member) confirmed
  · rintro ⟨swap, member, rfl⟩
    have held := intact.held swap member
    obtain ⟨sameJob, sameStep, _⟩ := slotKey_inj.mp held.slot
    obtain ⟨hash, hashed, _⟩ := held.succeeded
    exact ⟨⟨⟨Table.get?_mem held.row, sameJob⟩, sameStep⟩, held.confirmed, by rw [hashed]; rfl⟩

theorem confirmedSwaps_sorted (state : JobState) : (confirmedSwaps job state).Pairwise fun first second => first.key < second.key :=
  state.journal.sorted.sublist ((List.filter_sublist.trans List.filter_sublist).trans List.filter_sublist)

theorem confirmedSwaps_perm (intact : Intact R job chain state) : (confirmedSwaps job state).Perm (state.settled.map SettledSwap.row) := by
  apply (List.perm_ext_iff_of_nodup ?_ ?_).mpr
  · intro row
    rw [mem_confirmedSwaps intact, List.mem_map]
  · exact (confirmedSwaps_sorted state).imp fun before same => before.ne (congrArg JobTransaction.key same)
  · exact List.pairwise_map.mpr (intact.apart.imp fun apart same => apart (congrArg JobTransaction.txIndex same))

theorem confirmedSwaps_same {start : JobState} (intact : Intact R job chain start) (same : SwapsSame job start state) :
    confirmedSwaps job state = confirmedSwaps job start := by
  have after := confirmedSwaps_perm (intact.same same)
  rw [same.settled] at after
  have perm := after.trans (confirmedSwaps_perm intact).symm
  exact perm.eq_of_pairwise (fun _ _ _ _ before after => absurd (before.trans after) (lt_irrefl _)) (confirmedSwaps_sorted state)
    (confirmedSwaps_sorted start)

section

variable (intact : Intact R job chain state)
include intact

theorem executed_settled {swap : SettledSwap} (member : swap ∈ state.settled) :
    swap.row.txIndex ∈ executedSlots job state :=
  List.mem_map_of_mem ((mem_confirmedSwaps intact).mpr ⟨swap, member, rfl⟩)

theorem free_unexecuted {txIndex : Nat} (unexecuted : txIndex ∉ executedSlots job state) :
    Free state txIndex := by
  rintro swap member rfl
  exact unexecuted (executed_settled intact member)

theorem free_fresh {txIndex : Nat} (fresh : firstFresh job state ≤ txIndex) : Free state txIndex :=
  intact.free_after ((le_max_right _ _).trans fresh)

theorem StrategySlot.free {swap : SlottedSwap} (slot : StrategySlot job state swap) :
    Free state swap.txIndex := by
  rcases slot with ⟨record, reusable, same⟩ | fresh
  · have kept := List.mem_filter.mp reusable
    simp only [Bool.and_eq_true, decide_eq_true_eq] at kept
    rw [← same]
    exact free_unexecuted intact kept.2.2
  · exact free_fresh intact fresh

theorem pending_free (single : taxSwaps.length ≤ 1) :
    ∀ swap ∈ (planSlots job state taxSwaps cycleSwaps).pending, Free state swap.txIndex := by
  obtain ⟨_, strategies, _⟩ := @planSlots_spec job state taxSwaps cycleSwaps single
  intro swap member
  rcases List.mem_append.mp member with tax | strategy
  · have unexecuted := (List.mem_filter.mp tax).2
    simp only [decide_eq_true_eq] at unexecuted
    exact free_unexecuted intact unexecuted
  · exact (strategies swap strategy).free intact

end

theorem pending_sublist (slots : SlotPlan) : slots.pending.Sublist (slots.taxes ++ slots.strategies) :=
  List.filter_sublist.append (List.Sublist.refl _)

def written (state : JobState) (records : List SwapPlanRecord) : JobState :=
  { state with swapPlan := records.foldl Table.put state.swapPlan }

theorem written_intact (intact : Intact R job chain state) {records : List SwapPlanRecord}
    (rewrites : ∀ swap ∈ state.settled, ∀ record ∈ records, swap.row.txIndex = record.txIndex → R swap.record record) :
    Intact R job chain (written state records) := by
  induction records generalizing state with
  | nil => exact intact
  | cons record rest ih =>
    have first : Intact R job chain { state with swapPlan := state.swapPlan.put record } :=
      intact.recorded fun swap member same => rewrites swap member record List.mem_cons_self same
    exact ih first fun swap member other later => rewrites swap member other (List.mem_cons_of_mem _ later)

theorem written_record {slots : SlotPlan} (distinct : DistinctSlots (slots.taxes ++ slots.strategies)) {swap : SlottedSwap}
    (member : swap ∈ slots.pending) : (written state slots.records).swapPlan.get? swap.txIndex = some swap.record := by
  have apart : slots.records.Pairwise fun first second => first.txIndex ≠ second.txIndex := List.pairwise_map.mpr distinct
  exact Table.get?_foldl_put_of_mem apart (List.mem_map_of_mem ((pending_sublist slots).subset member))

end

end LpTerminal.WalletSlots
