import LpTerminal.Lib.Trace
import LpTerminal.Withdrawal.WithdrawalLaw
import Mathlib.Data.List.Pairwise

/-!
A withdrawal with its crashes and recoveries: each confirmed swap moves its amounts once, the release is
committed at most once, and principal and held fees stay.
-/

namespace LpTerminal.Withdrawal

open Allocations Durable Fallible Receipts Recovery Store Trace

variable {job : ProfitJob} {chain : ChainFacts job.owner} {initial : WithdrawalState} {context : ProfitWithdrawalContext}

def AllRecorded (job : ProfitJob) (chain : ChainFacts job.owner) (swaps : List ProfitSwapRecord) (state : WithdrawalState) : Prop :=
  ∀ swap ∈ swaps, ∃ row ∈ jobRows job state, row.stepIndex = swap.stepIndex ∧ Recorded job chain state.store.ledger swap row.hash

theorem recorded_append {ledger : Ledger} {swap other : ProfitSwapRecord} {hash otherHash : Hash} {spent gained : ℤ}
    (recorded : Recorded job chain ledger other otherHash) (clean : recordedEntries job ledger hash = []) :
    Recorded job chain (ledger ++ [swapInEntry job swap hash spent, swapOutEntry job swap hash gained]) other otherHash := by
  have apart : hash ≠ otherHash := by
    rintro rfl
    unfold Recorded at recorded
    rw [clean] at recorded
    cases recorded
  unfold Recorded at recorded ⊢
  rw [recordedEntries_append, recorded]
  simp [recordedEntries, swapInEntry, swapOutEntry, apart]

variable {swap : ProfitSwapRecord} {finalTx : Option Hash} {hash : Hash}

theorem recorded_release {ledger : Ledger} {amountOut : ℤ}
    (recorded : Recorded job chain ledger swap hash) :
    Recorded job chain (ledger ++ [withdrawalEntry job context amountOut finalTx]) swap hash := by
  unfold Recorded at recorded ⊢
  rw [recordedEntries_append, recorded]
  simp [recordedEntries, withdrawalEntry]

theorem sendTracked_spec {state : WithdrawalState} (stepIndex : ℕ) (sending : Sending) :
    Triple (· = state) (sendTracked job stepIndex sending)
      (fun _ after => (∀ row ∈ state.journal, row.hash ≠ sending.hash) ∧ after = withRow job state stepIndex sending.hash)
      (fun after => after = state ∨
        (∀ row ∈ state.journal, row.hash ≠ sending.hash) ∧ after = withRow job state stepIndex sending.hash) := by
  refine triple_bind (Q := fun _ here => here = state) (triple_reply (fun _ _ same _ => same) fun _ _ same _ => Or.inl same) fun _ => ?_
  refine triple_bind (Q := fun _ after => (∀ row ∈ state.journal, row.hash ≠ sending.hash) ∧
    after = withRow job state stepIndex sending.hash) (triple_tryWrite ?_ ?_) fun _ => ?_
  · intro here after same told
    subst same
    split at told
    · cases told
    · rename_i fresh
      cases told
      exact ⟨by simpa using fresh, rfl⟩
  · exact fun _ _ same _ => Or.inl same
  · exact triple_reply (fun _ _ wrote _ => wrote) fun _ _ wrote _ => Or.inr wrote

/-- Between two transactions of a live execution: the swaps in `done` are recorded, no swap step from
`bound` on has a row, and nothing is released. -/
structure Live (job : ProfitJob) (chain : ChainFacts job.owner) (initial : WithdrawalState) (context : ProfitWithdrawalContext)
    (done : List ProfitSwapRecord) (bound : ℕ) (state : WithdrawalState) : Prop where
  sound : Sound job chain initial state
  context : state.context = some context
  bounded : ∀ row ∈ jobRows job state, row.stepIndex % 3 = 1 → row.stepIndex < bound
  silent : summaries job state.store.ledger = []
  recorded : AllRecorded job chain done state

variable {done : List ProfitSwapRecord} {bound index : ℕ} {state : WithdrawalState}

theorem Live.send (live : Live job chain initial context done bound state) {stepIndex : ℕ}
    (fresh : ∀ row ∈ state.journal, row.hash ≠ hash) (own : stepIndex % 3 = 1 → stepIndex = bound) :
    Live job chain initial context done (if stepIndex % 3 = 1 then bound + 1 else bound) (withRow job state stepIndex hash) where
  sound := live.sound.send fresh fun swapStep row member same => by
    have below := live.bounded row member (same ▸ swapStep)
    have here := own swapStep
    omega
  context := live.context
  bounded := by
    rw [jobRows_withRow]
    intro row member swapStep
    rcases List.mem_append.mp member with old | new
    · have below := live.bounded row old swapStep
      split <;> omega
    · cases List.mem_singleton.mp new
      change stepIndex % 3 = 1 at swapStep
      change stepIndex < _
      rw [if_pos swapStep]
      have here := own swapStep
      omega
  silent := live.silent
  recorded swap member := by
    obtain ⟨row, sent, rest⟩ := live.recorded swap member
    exact ⟨row, by rw [jobRows_withRow]; exact List.mem_append_left _ sent, rest⟩

theorem exactAllowance_live {stepIndex : ℕ} (other : stepIndex % 3 ≠ 1) (sendings : List Sending) :
    Triple (Live job chain initial context done bound) (exactAllowance job stepIndex sendings)
      (fun _ => Live job chain initial context done bound) (Sound job chain initial) := by
  induction sendings with
  | nil => exact triple_pure fun _ live => live
  | cons sending rest ih =>
    refine triple_bind (triple_each fun state live => triple_weaken (sendTracked_spec stepIndex sending) (fun _ same => same) ?_ ?_)
      fun _ => ih
    · rintro _ after ⟨fresh, rfl⟩
      have sent := live.send fresh fun swapStep => absurd swapStep other
      rwa [if_neg other] at sent
    · rintro after (rfl | ⟨fresh, rfl⟩)
      · exact live.sound
      · exact (live.send fresh fun swapStep => absurd swapStep other).sound

theorem Live.weaken (live : Live job chain initial context done bound state) {higher : ℕ} (above : bound ≤ higher) :
    Live job chain initial context done higher state :=
  { live with bounded := fun row member swapStep => (live.bounded row member swapStep).trans_le above }

theorem Planned.add (planned : Planned context) (step : swap.stepIndex % 3 = 1)
    (tokens : swap.tokenIn ≠ swap.tokenOut) (apart : ∀ old ∈ context.swaps, old.stepIndex ≠ swap.stepIndex) :
    Planned { context with swaps := context.swaps ++ [swap] } where
  steps other member := by
    rcases List.mem_append.mp member with old | new
    · exact planned.steps other old
    · exact List.mem_singleton.mp new ▸ step
  tokens other member := by
    rcases List.mem_append.mp member with old | new
    · exact planned.tokens other old
    · exact List.mem_singleton.mp new ▸ tokens
  apart := List.pairwise_append.mpr ⟨planned.apart, List.pairwise_singleton _ _, fun old member new same =>
    List.mem_singleton.mp same ▸ apart old member⟩

variable {after : WithdrawalState}

theorem Live.move (live : Live job chain initial context done bound state) (known : swap ∈ context.swaps)
    {row : SentTransaction} (sent : row ∈ jobRows job state) (step : row.stepIndex = swap.stepIndex)
    (clean : Unrecorded job state.store.ledger row.hash)
    (updated : Updated job state after (moveOf swap (-chain.moved row.hash swap.tokenIn) (chain.moved row.hash swap.tokenOut))
      [swapInEntry job swap row.hash (-chain.moved row.hash swap.tokenIn),
        swapOutEntry job swap row.hash (chain.moved row.hash swap.tokenOut)]) :
    Live job chain initial context (done ++ [swap]) bound after := by
  obtain ⟨sound, recorded, appended⟩ := live.sound.moved live.context known sent step clean updated
  have journal : after.journal = state.journal := by rw [updated.elsewhere]
  refine ⟨sound, by rw [updated.elsewhere]; exact live.context, by rw [jobRows_same journal]; exact live.bounded, ?_, ?_⟩
  · have silent := live.silent
    unfold summaries at silent ⊢
    rw [appended, List.filter_append, silent]
    simp [isSummary, swapInEntry, swapOutEntry]
  · intro other member
    rw [jobRows_same journal]
    rcases List.mem_append.mp member with old | new
    · obtain ⟨earlier, there, at', kept⟩ := live.recorded other old
      exact ⟨earlier, there, at', appended ▸ recorded_append kept clean.1⟩
    · cases List.mem_singleton.mp new
      exact ⟨row, sent, step, recorded⟩

theorem convert_spec (planned : Planned context) (below : ∀ swap ∈ context.swaps, swap.stepIndex < 3 * index) {source : Address × ℤ}
    (foreign : source.1 ≠ job.settlementToken) (answers : ConversionAnswers) :
    Triple (Live job chain initial context context.swaps (3 * index)) (convert job chain context index source answers)
      (fun after state => (Planned after ∧ (∀ swap ∈ after.swaps, swap.stepIndex < 3 * (index + 1))) ∧
        Live job chain initial after after.swaps (3 * (index + 1)) state)
      (Sound job chain initial) := by
  refine triple_bind (Q := fun _ => Live job chain initial context context.swaps (3 * index))
    (triple_reply (fun _ _ live _ => live) fun _ _ live _ => live.sound) fun minOut => ?_
  set swap : ProfitSwapRecord := ⟨3 * index + 1, source.1, job.settlementToken, source.2, minOut⟩ with swapIs
  set next : ProfitWithdrawalContext := { context with swaps := context.swaps ++ [swap] } with nextIs
  have plannedNext : Planned next := planned.add (by change (3 * index + 1) % 3 = 1; omega) foreign fun old member => by
    have before := below old member
    change old.stepIndex ≠ 3 * index + 1
    omega
  have belowNext : ∀ swap ∈ next.swaps, swap.stepIndex < 3 * (index + 1) := by
    intro other member
    rcases List.mem_append.mp member with old | new
    · have before := below other old
      omega
    · rw [List.mem_singleton.mp new]
      change 3 * index + 1 < 3 * (index + 1)
      omega
  refine triple_bind (Q := fun _ => Live job chain initial next context.swaps (3 * index)) (triple_write fun state live => ?_) fun _ => ?_
  · refine ⟨live.sound.replan plannedNext fun old here swap member => ?_, rfl, live.bounded, live.silent, live.recorded⟩
    cases live.context.symm.trans here
    exact List.mem_append_left _ member
  refine triple_bind (exactAllowance_live (by omega) answers.approval) fun _ => ?_
  refine triple_bind (Q := fun _ => Live job chain initial next context.swaps (3 * index))
    (triple_reply (fun _ _ live _ => live) fun _ _ live _ => live.sound) fun before => ?_
  -- the row of the swap is the first of its step, and no entry knows its hash
  let row : SentTransaction := ⟨job.jobId, 3 * index + 1, answers.swap.hash⟩
  refine triple_bind (Q := fun _ state => Live job chain initial next context.swaps (3 * (index + 1)) state ∧ row ∈ jobRows job state ∧
    Unrecorded job state.store.ledger row.hash) ?_ fun _ => ?_
  · refine triple_each fun state live => triple_weaken (sendTracked_spec (3 * index + 1) answers.swap) (fun _ same => same) ?_ ?_
    · rintro _ after ⟨fresh, rfl⟩
      have sent := (live.weaken (Nat.le_succ _)).send fresh fun _ => rfl
      refine ⟨sent.weaken (by split <;> omega), ?_, live.sound.unrecorded fresh⟩
      rw [jobRows_withRow]
      exact List.mem_append_right _ List.mem_cons_self
    · rintro after (rfl | ⟨fresh, rfl⟩)
      · exact live.sound
      · exact ((live.weaken (Nat.le_succ _)).send fresh fun _ => rfl).sound
  refine triple_bind (Q := fun _ state => Live job chain initial next context.swaps (3 * (index + 1)) state ∧ row ∈ jobRows job state ∧
    Unrecorded job state.store.ledger row.hash) (triple_reply (fun _ _ sent _ => sent) fun _ _ sent _ => sent.1.sound) fun _ => ?_
  refine triple_bind (Q := fun _ => Live job chain initial next next.swaps (3 * (index + 1))) ?_ fun _ => ?_
  · refine triple_each fun state sent => ?_
    obtain ⟨live, sent, clean⟩ := sent
    rw [spentByWallet_felt chain, receivedByWallet_felt chain]
    refine triple_weaken (moveProfit_spec foreign answers.swap.hash _ _ _ _) (fun _ same => same) (fun _ after updated => ?_) ?_
    · exact live.move (List.mem_append_right _ List.mem_cons_self) sent rfl clean updated
    · rintro after rfl
      exact live.sound
  refine triple_bind (exactAllowance_live (by omega) answers.revocation) fun _ => ?_
  exact triple_pure fun state live => ⟨⟨plannedNext, belowNext⟩, live⟩

theorem convertAll_spec (answers : ℕ → ConversionAnswers) (sources : List (Address × ℤ)) {index : ℕ} {context : ProfitWithdrawalContext}
    (planned : Planned context) (below : ∀ swap ∈ context.swaps, swap.stepIndex < 3 * index) :
    Triple (Live job chain initial context context.swaps (3 * index)) (convertAll job chain answers index sources context)
      (fun after state => Planned after ∧ ∃ bound, Live job chain initial after after.swaps bound state)
      (Sound job chain initial) := by
  induction sources generalizing index context with
  | nil => exact triple_pure fun state live => ⟨planned, _, live⟩
  | cons source rest ih =>
    unfold convertAll
    split
    · exact ih planned below
    · rename_i foreign
      refine triple_bind (convert_spec planned below foreign (answers index)) fun next => ?_
      exact triple_assume fun shape => ih shape.1 shape.2

theorem lastTransaction_sent {holds : Hash → Bool} (last : hash ∈ lastTransaction job holds state) :
    ∃ row ∈ state.journal, row.hash = hash := by
  obtain ⟨row, found, rfl⟩ := Option.map_eq_some_iff.mp (Option.mem_def.mp last)
  exact ⟨row, List.mem_of_mem_filter (List.mem_of_mem_filter (List.mem_of_getLast? found)), rfl⟩

variable {P : WithdrawalState → Prop}

theorem complete_keeps
    (frame : ∀ state status, P state → P { state with status }) : Keeps P completeProfitWithdrawalJob := by
  refine keeps_bind keeps_read fun state => keeps_bind (keeps_reply _) fun _ => ?_
  exact keeps_write fun state before => frame state _ before

theorem abandon_keeps
    (frame : ∀ state status, P state → P { state with status }) : Keeps P abandonProfitWithdrawalJob := by
  refine keeps_bind keeps_read fun state => keeps_bind (keeps_reply _) fun _ => ?_
  exact keeps_write fun state before => frame state _ before

theorem finalize_spec (answers : FinalAnswers)
    (law : ∀ state, P state → Sound job chain initial state ∧ summaries job state.store.ledger = [] ∧
      ∀ hash ∈ finalTx, ∃ row ∈ state.journal, row.hash = hash)
    {R : WithdrawalState → Prop} (status : ∀ state status, R state → R { state with status })
    (release : ∀ state after amountOut, P state →
      Updated job state after (releaseOf context.settlementToken amountOut) [withdrawalEntry job context amountOut finalTx] →
      after.store.ledger = state.store.ledger ++ [withdrawalEntry job context amountOut finalTx] → R after) :
    Triple P (finalizeWithdrawal job context finalTx answers) (fun _ state => Sound job chain initial state ∧ R state)
      (Sound job chain initial) := by
  unfold finalizeWithdrawal
  cases context.release with
  | none => exact triple_fail fun state before => (law state before).1
  | some release' =>
    refine triple_bind (Q := fun _ => P) (triple_reply (fun _ _ before _ => before) fun state _ before _ => (law state before).1)
      fun balances => ?_
    refine triple_bind (Q := fun told state => told = state ∧ P state) (triple_read fun _ before => ⟨rfl, before⟩) fun told => ?_
    refine triple_bind (Q := fun _ state => (parts job told.store context.settlementToken).heldProfit = release'.amountOut ∧
      told = state ∧ P state) (triple_reply (fun _ _ before answer => ⟨demand_ok.mp answer, before⟩)
        fun state _ before _ => (law state before.2).1) fun _ => ?_
    refine triple_assume fun whole => triple_bind (Q := fun _ state => Sound job chain initial state ∧ R state) ?_ fun _ => ?_
    · refine triple_each fun state before => ?_
      obtain ⟨rfl, before⟩ := before
      obtain ⟨sound, silent, sent⟩ := law told before
      refine triple_weaken (release_spec finalTx _ answers.stored whole) (fun _ same => same) (fun _ after updated => ?_) ?_
      · obtain ⟨kept, appended⟩ := sound.released silent sent updated
        exact ⟨kept, release told after release'.amountOut before updated appended⟩
      · rintro after rfl
        exact sound
    · refine triple_bind (Q := fun _ state => Sound job chain initial state ∧ R state)
        (triple_reply (fun _ _ kept _ => kept) fun _ _ kept _ => kept.1) fun _ => ?_
      refine triple_weaken (complete_keeps fun state next kept => ⟨kept.1.frame rfl rfl rfl, status state next kept.2⟩)
        (fun _ kept => kept) (fun _ _ kept => kept) fun _ kept => kept.1

/-- The job is new to the store, and the ledger names only hashes of the journal. -/
structure Fresh (job : ProfitJob) (state : WithdrawalState) : Prop where
  context : state.context = none
  rows : jobRows job state = []
  hashes : ∀ entry ∈ state.store.ledger, ∀ hash, NamesHash entry hash → ∃ row ∈ state.journal, row.hash = hash
  entries : ∀ entry ∈ state.store.ledger, entry.jobId ≠ some job.jobId ∧ entry.id ≠ .withdrawal job.jobId

theorem Fresh.silent (fresh : Fresh job initial) : summaries job initial.store.ledger = [] := by
  refine List.filter_eq_nil_iff.mpr fun entry member summary => ?_
  exact (fresh.entries entry member).1 (of_decide_eq_true summary).2.1

theorem Fresh.sound (fresh : Fresh job initial) : Sound job chain initial initial where
  explained token := by simp
  hashes := fresh.hashes
  single := by
    rw [fresh.silent]
    exact Nat.zero_le _
  summaryIds entry member named := absurd named (fresh.entries entry member).2
  rowHashes row member := by
    rw [fresh.rows] at member
    cases member
  rowSteps row member := by
    rw [fresh.rows] at member
    cases member
  planned context here := by
    rw [fresh.context] at here
    cases here
  recorded row member := by
    rw [fresh.rows] at member
    cases member

def Complete (job : ProfitJob) (chain : ChainFacts job.owner) (state : WithdrawalState) : Prop :=
  ∀ context ∈ state.context, AllRecorded job chain context.swaps state

theorem AllRecorded.release {swaps : List ProfitSwapRecord} {amountOut : ℤ}
    (recorded : AllRecorded job chain swaps state) (journal : after.journal = state.journal)
    (appended : after.store.ledger = state.store.ledger ++ [withdrawalEntry job context amountOut finalTx]) :
    AllRecorded job chain swaps after := by
  intro swap member
  obtain ⟨row, sent, step, kept⟩ := recorded swap member
  exact ⟨row, by rw [jobRows_same journal]; exact sent, step, appended ▸ recorded_release kept⟩

def Releasing (job : ProfitJob) (chain : ChainFacts job.owner) (initial : WithdrawalState) (context : ProfitWithdrawalContext)
    (finalTx : Option Hash) (state : WithdrawalState) : Prop :=
  (∃ bound, Live job chain initial context context.swaps bound state) ∧ ∀ hash ∈ finalTx, ∃ row ∈ state.journal, row.hash = hash

theorem finalize_live (finalTx : Option Hash) (answers : FinalAnswers) :
    Triple (Releasing job chain initial context finalTx) (finalizeWithdrawal job context finalTx answers)
      (fun _ state => Sound job chain initial state ∧ Complete job chain state) (Sound job chain initial) := by
  refine finalize_spec answers (fun state releasing => ?_) (fun state _ complete => complete) fun state after amountOut releasing updated appended => ?_
  · obtain ⟨⟨bound, live⟩, sent⟩ := releasing
    exact ⟨live.sound, live.silent, sent⟩
  · obtain ⟨⟨bound, live⟩, _⟩ := releasing
    intro other here
    rw [updated.elsewhere] at here
    cases live.context.symm.trans here
    exact live.recorded.release (by rw [updated.elsewhere]) appended

theorem withdrawRetainedProfit_spec (fresh : Fresh job initial) (answers : LiveAnswers) :
    Triple (· = initial) (withdrawRetainedProfit job chain answers)
      (fun _ state => Sound job chain initial state ∧ Complete job chain state) (Sound job chain initial) := by
  have start : Sound job chain initial initial := fresh.sound
  refine triple_bind (Q := fun _ state => state = initial) (triple_reply (fun _ _ same _ => same) fun _ _ same _ => same ▸ start) fun tracked => ?_
  refine triple_bind (Q := fun told state => told = initial ∧ state = initial) (triple_read fun _ same => ⟨same, same⟩) fun told => ?_
  refine triple_assume fun here => ?_
  subst here
  iterate 2 refine triple_bind (Q := fun _ state => state = told) (triple_reply (fun _ _ same _ => same) fun _ _ same _ => same ▸ start) fun _ => ?_
  refine triple_bind (Q := fun _ state => state = { told with status := some .running })
    (triple_write fun _ same => by rw [same]) fun _ => ?_
  refine triple_bind (Q := fun _ state => state = { told with status := some .running })
    (triple_reply (fun _ _ same _ => same) fun _ _ same _ => same ▸ start.frame rfl rfl rfl) fun _ => ?_
  set context : ProfitWithdrawalContext := ⟨job.target, job.settlementToken, tracked, profitSources job told.store, [], none⟩ with contextIs
  have planned : Planned context := ⟨fun _ member => (by cases member), fun _ member => (by cases member), List.Pairwise.nil⟩
  refine triple_bind (Q := fun _ => Live job chain told context context.swaps (3 * 0)) (triple_write fun state same => ?_) fun _ => ?_
  · subst same
    have framed : Sound job chain told { told with status := some .running } := start.frame rfl rfl rfl
    refine ⟨framed.replan planned fun old here => ?_, rfl, fun row member => ?_, fresh.silent, fun swap member => ?_⟩
    · change told.context = some old at here
      rw [fresh.context] at here
      cases here
    · change row ∈ jobRows job told at member
      rw [fresh.rows] at member
      cases member
    · cases member
  refine triple_bind (convertAll_spec answers.conversions context.sources planned fun swap member => (by cases member)) fun context => ?_
  refine triple_assume fun planned => triple_each fun state converted => ?_
  obtain ⟨bound, live⟩ := converted
  refine triple_bind (Q := fun read here => read = state ∧ here = state) (triple_read fun _ same => ⟨same, same⟩) fun read => ?_
  refine triple_assume fun here => ?_
  subst here
  refine triple_bind (Q := fun _ state => state = read) (triple_reply (fun _ _ same _ => same) fun _ _ same _ => same ▸ live.sound) fun _ => ?_
  refine triple_bind (Q := fun _ state => state = read) (triple_reply (fun _ _ same _ => same) fun _ _ same _ => same ▸ live.sound) fun mark => ?_
  set released : ProfitWithdrawalContext := { context with release := some ⟨(parts job read.store job.settlementToken).heldProfit, mark.1, mark.2⟩ }
  refine triple_bind (Q := fun _ state => Live job chain told released released.swaps bound state ∧ state.journal = read.journal)
    (triple_write fun state same => ?_) fun _ => ?_
  · subst same
    refine ⟨⟨live.sound.replan ⟨planned.steps, planned.tokens, planned.apart⟩ fun old here swap member => ?_, rfl, live.bounded, live.silent,
      live.recorded⟩, rfl⟩
    cases live.context.symm.trans here
    exact member
  split
  · refine triple_bind (Q := fun _ state => Live job chain told released released.swaps bound state) ?_ fun _ => ?_
    · refine triple_each fun state before => triple_weaken (sendTracked_spec 9 answers.unwrap) (fun _ same => same) ?_ ?_
      · rintro _ after ⟨fresh, rfl⟩
        exact before.1.send fresh fun swapStep : 9 % 3 = 1 => by omega
      · rintro after (rfl | ⟨fresh, rfl⟩)
        · exact before.1.sound
        · exact (before.1.send fresh fun swapStep : 9 % 3 = 1 => by omega).sound
    · refine triple_bind (Q := fun _ state => Live job chain told released released.swaps bound state)
        (triple_reply (fun _ _ live _ => live) fun _ _ live _ => live.sound) fun _ => ?_
      refine triple_bind (Q := fun now state => now = state ∧ Live job chain told released released.swaps bound state)
        (triple_read fun _ live => ⟨rfl, live⟩) fun now => ?_
      refine triple_weaken (finalize_live _ answers.final) (fun state before => ?_) (fun _ _ kept => kept) fun _ kept => kept
      obtain ⟨rfl, live⟩ := before
      exact ⟨⟨bound, live⟩, fun hash last => lastTransaction_sent last⟩
  · refine triple_weaken (finalize_live _ answers.final) (fun state before => ?_) (fun _ _ kept => kept) fun _ kept => kept
    refine ⟨⟨bound, before.1⟩, fun hash last => ?_⟩
    rw [before.2]
    exact lastTransaction_sent last

def ConfirmedRecorded (job : ProfitJob) (chain : ChainFacts job.owner) (fate : Hash → RecoveryTxState) (swaps : List ProfitSwapRecord)
    (state : WithdrawalState) : Prop :=
  ∀ swap ∈ swaps, ∀ hash ∈ confirmedAt job fate state swap.stepIndex, Recorded job chain state.store.ledger swap hash

/-- Inside a recovery: the swaps in `done` are settled, and the journal stands still. -/
structure Recovering (job : ProfitJob) (chain : ChainFacts job.owner) (initial : WithdrawalState) (fate : Hash → RecoveryTxState)
    (context : ProfitWithdrawalContext) (journal : List SentTransaction) (done : List ProfitSwapRecord) (state : WithdrawalState) :
    Prop where
  sound : Sound job chain initial state
  context : state.context = some context
  journal : state.journal = journal
  confirmed : ConfirmedRecorded job chain fate done state

variable {fate : Hash → RecoveryTxState} {journal : List SentTransaction}

theorem confirmedAt_row {stepIndex : ℕ} (confirmed : confirmedAt job fate state stepIndex = some hash) :
    ∃ row ∈ jobRows job state, row.stepIndex = stepIndex ∧ row.hash = hash := by
  have member := List.mem_of_getLast? confirmed
  obtain ⟨row, chosen, same⟩ := List.mem_map.mp member
  obtain ⟨sent, matched⟩ := List.mem_filter.mp chosen
  exact ⟨row, sent, (of_decide_eq_true matched).1, same⟩

theorem confirmedAt_same (same : after.journal = state.journal) (stepIndex : ℕ) :
    confirmedAt job fate after stepIndex = confirmedAt job fate state stepIndex := by
  unfold confirmedAt
  rw [jobRows_same same]

theorem Recovering.decide (recovering : Recovering job chain initial fate context journal done state)
    (known : swap ∈ context.swaps) {row : SentTransaction} (sent : row ∈ jobRows job state) (step : row.stepIndex = swap.stepIndex) :
    Unrecorded job state.store.ledger row.hash ∨ Recorded job chain state.store.ledger swap row.hash := by
  rcases recovering.sound.recorded row sent with clean | ⟨other, here, same, member, at', recorded⟩
  · exact Or.inl clean
  · cases recovering.context.symm.trans here
    have planned := recovering.sound.planned context recovering.context
    have one : same = swap := by
      by_contra different
      have symmetric : Std.Symm fun first second : ProfitSwapRecord => first.stepIndex ≠ second.stepIndex := ⟨fun _ _ => Ne.symm⟩
      exact planned.apart.forall member known different (at'.trans step)
    exact Or.inr (one ▸ recorded)

theorem Recovering.settle (recovering : Recovering job chain initial fate context journal done state)
    (confirmed : confirmedAt job fate state swap.stepIndex = some hash)
    (recorded : Recorded job chain state.store.ledger swap hash) :
    Recovering job chain initial fate context journal (done ++ [swap]) state := by
  refine { recovering with confirmed := fun other member otherHash found => ?_ }
  rcases List.mem_append.mp member with old | new
  · exact recovering.confirmed other old otherHash found
  · cases List.mem_singleton.mp new
    cases confirmed.symm.trans found
    exact recorded

theorem recoverSwap_spec (answers : RecoveryAnswers) (known : swap ∈ context.swaps) :
    Triple (Recovering job chain initial answers.fate context journal done) (recoverSwap job chain answers context swap)
      (fun _ => Recovering job chain initial answers.fate context journal (done ++ [swap])) (Sound job chain initial) := by
  refine triple_each fun state recovering => ?_
  refine triple_bind (Q := fun read here => read = state ∧ here = state) (triple_read fun _ same => ⟨same, same⟩) fun read => ?_
  refine triple_assume fun here => ?_
  subst here
  split
  · rename_i unconfirmed
    refine triple_pure fun state same => ?_
    subst same
    refine { recovering with confirmed := fun other member hash found => ?_ }
    rcases List.mem_append.mp member with old | new
    · exact recovering.confirmed other old hash found
    · cases List.mem_singleton.mp new
      rw [unconfirmed] at found
      cases found
  rename_i hash confirmed
  obtain ⟨row, sent, step, rfl⟩ := confirmedAt_row confirmed
  dsimp only
  split
  · rename_i known'
    have recorded : Recorded job chain read.store.ledger swap row.hash :=
      (recovering.decide known sent step).resolve_left fun clean => known' clean.1
    refine triple_bind (Q := fun _ state => state = read) (triple_reply (fun _ _ same _ => same)
      fun _ _ same _ => same ▸ recovering.sound) fun _ => triple_pure fun state same => ?_
    subst same
    exact recovering.settle confirmed recorded
  · rename_i unknown
    have clean : Unrecorded job read.store.ledger row.hash :=
      (recovering.decide known sent step).resolve_right fun recorded => unknown fun none => by
        unfold Recorded at recorded
        rw [none] at recorded
        cases recorded
    refine triple_bind (Q := fun _ state => (swap.tokenIn ≠ zeroAddress ∧ swap.tokenOut ≠ zeroAddress) ∧ state = read)
      (triple_reply (fun _ _ same answer => ⟨demand_ok.mp answer, same⟩) fun _ _ same _ => same ▸ recovering.sound) fun _ => ?_
    refine triple_assume fun erc20 => ?_
    have planned := recovering.sound.planned context recovering.context
    rw [← chain.logged row.hash swap.tokenIn erc20.1, ← chain.logged row.hash swap.tokenOut erc20.2]
    refine triple_bind (triple_weaken (moveProfit_spec (planned.tokens swap known) row.hash _ _ _ _) (fun _ same => same)
      (fun _ _ updated => updated) fun after same => same ▸ recovering.sound) fun _ => triple_pure fun after updated => ?_
    obtain ⟨sound, recorded, appended⟩ := recovering.sound.moved recovering.context known sent step clean updated
    have same : after.journal = read.journal := by rw [updated.elsewhere]
    have moved : Recovering job chain initial answers.fate context journal done after := by
      refine ⟨sound, by rw [updated.elsewhere]; exact recovering.context, same.trans recovering.journal, fun other member hash found => ?_⟩
      rw [confirmedAt_same same] at found
      rw [appended]
      exact recorded_append (recovering.confirmed other member hash found) clean.1
    exact moved.settle ((confirmedAt_same same _).trans confirmed) recorded

theorem recoverSwaps_spec (answers : RecoveryAnswers) (swaps : List ProfitSwapRecord) (known : ∀ swap ∈ swaps, swap ∈ context.swaps) :
    Triple (Recovering job chain initial answers.fate context journal done) (recoverSwaps job chain answers context swaps)
      (fun _ => Recovering job chain initial answers.fate context journal (done ++ swaps)) (Sound job chain initial) := by
  induction swaps generalizing done with
  | nil => exact triple_pure fun _ recovering => by rw [List.append_nil]; exact recovering
  | cons swap rest ih =>
    obtain ⟨own, later⟩ := List.forall_mem_cons.mp known
    refine triple_bind (recoverSwap_spec answers own) fun confirmed => ?_
    refine triple_bind (ih later) fun others => triple_pure fun state recovering => ?_
    rwa [List.append_assoc] at recovering

def Settled (job : ProfitJob) (chain : ChainFacts job.owner) (fate : Hash → RecoveryTxState) (state : WithdrawalState) : Prop :=
  ∀ context ∈ state.context, ConfirmedRecorded job chain fate context.swaps state

theorem Recovering.settled (recovering : Recovering job chain initial fate context journal context.swaps state) :
    Settled job chain fate state := by
  intro other here
  cases recovering.context.symm.trans here
  exact recovering.confirmed

def ReleaseReady (job : ProfitJob) (chain : ChainFacts job.owner) (initial : WithdrawalState) (fate : Hash → RecoveryTxState)
    (journal : List SentTransaction) (context : ProfitWithdrawalContext) (state : WithdrawalState) : Prop :=
  Recovering job chain initial fate context journal context.swaps state ∧ summaries job state.store.ledger = []

theorem recoverRelease_spec (answers : RecoveryAnswers) :
    Triple (ReleaseReady job chain initial answers.fate journal context) (recoverRelease job answers context)
      (fun after => ReleaseReady job chain initial answers.fate journal after) (Sound job chain initial) := by
  unfold recoverRelease
  split
  · exact triple_pure fun _ ready => ready
  refine triple_bind (Q := fun _ => ReleaseReady job chain initial answers.fate journal context) (triple_read fun _ ready => ready) fun now => ?_
  refine triple_bind (Q := fun _ => ReleaseReady job chain initial answers.fate journal context)
    (triple_reply (fun _ _ ready _ => ready) fun _ _ ready _ => ready.1.sound) fun _ => ?_
  refine triple_bind (Q := fun _ => ReleaseReady job chain initial answers.fate journal context)
    (triple_reply (fun _ _ ready _ => ready) fun _ _ ready _ => ready.1.sound) fun mark => ?_
  refine triple_bind (Q := fun _ => ReleaseReady job chain initial answers.fate journal { context with
    release := some ⟨(parts job now.store context.settlementToken).heldProfit, mark.1, mark.2⟩ }) (triple_write fun state ready => ?_)
    fun _ => triple_pure fun _ ready => ready
  obtain ⟨recovering, silent⟩ := ready
  have planned := recovering.sound.planned context recovering.context
  refine ⟨⟨recovering.sound.replan ⟨planned.steps, planned.tokens, planned.apart⟩ fun old here swap member => ?_, rfl, recovering.journal,
    recovering.confirmed⟩, silent⟩
  cases recovering.context.symm.trans here
  exact member

theorem finalize_recovered (sent : ∀ hash ∈ finalTx, ∃ row ∈ journal, row.hash = hash) (answers : FinalAnswers) :
    Triple (ReleaseReady job chain initial fate journal context) (finalizeWithdrawal job context finalTx answers)
      (fun _ state => Sound job chain initial state ∧ Settled job chain fate state) (Sound job chain initial) := by
  refine finalize_spec answers (fun state ready => ?_) (fun state _ settled => settled) fun state after amountOut ready updated appended => ?_
  · exact ⟨ready.1.sound, ready.2, fun hash last => ready.1.journal ▸ sent hash last⟩
  · intro other here swap member hash confirmed
    rw [updated.elsewhere] at here
    cases ready.1.context.symm.trans here
    rw [confirmedAt_same (by rw [updated.elsewhere])] at confirmed
    rw [appended]
    exact recorded_release (ready.1.confirmed swap member hash confirmed)

theorem summaries_of_existing {ledger : Ledger} (none : existingSummary job ledger = none) : summaries job ledger = [] :=
  List.filter_eq_nil_iff.mpr (List.find?_eq_none.mp none)

theorem recoverRetainedProfit_spec (answers : RecoveryAnswers) :
    Triple (Sound job chain initial) (recoverRetainedProfit job chain answers)
      (fun _ state => Sound job chain initial state ∧ Settled job chain answers.fate state) (Sound job chain initial) := by
  refine triple_each fun state sound => ?_
  refine triple_bind (Q := fun read here => read = state ∧ here = state) (triple_read fun _ same => ⟨same, same⟩) fun read => ?_
  refine triple_assume fun here => ?_
  subst here
  refine triple_bind (Q := fun _ here => here = read) (triple_reply (fun _ _ same _ => same) fun _ _ same _ => same ▸ sound) fun _ => ?_
  split
  · exact triple_fail fun _ same => same ▸ sound
  rename_i context here
  iterate 3 refine triple_bind (Q := fun _ here => here = read) (triple_reply (fun _ _ same _ => same) fun _ _ same _ => same ▸ sound) fun _ => ?_
  refine triple_bind (Q := fun _ => Recovering job chain initial answers.fate context read.journal context.swaps)
    (triple_weaken (@recoverSwaps_spec _ chain initial context [] read.journal answers context.swaps fun _ member => member) ?_ (fun _ _ recovering => recovering)
      fun _ sound => sound) fun confirmed => ?_
  · rintro state rfl
    exact ⟨sound, here, rfl, fun swap member => by cases member⟩
  refine triple_each fun state recovering => ?_
  have status : ∀ (state : WithdrawalState) (next : Option JobStatus),
      Sound job chain initial state ∧ Settled job chain answers.fate state →
        Sound job chain initial { state with status := next } ∧ Settled job chain answers.fate { state with status := next } :=
    fun state next kept => ⟨kept.1.frame rfl rfl rfl, kept.2⟩
  have done : Sound job chain initial state ∧ Settled job chain answers.fate state := ⟨recovering.sound, recovering.settled⟩
  refine triple_bind (Q := fun read here => read = state ∧ here = state) (triple_read fun _ same => ⟨same, same⟩) fun now => ?_
  refine triple_assume fun here => ?_
  subst here
  dsimp only
  split
  · refine triple_bind (triple_weaken (complete_keeps status) (fun _ same => same ▸ done) (fun _ _ kept => kept) fun _ kept => kept.1)
      fun _ => triple_pure fun _ kept => kept
  rename_i silent
  have ready : ReleaseReady job chain initial answers.fate read.journal context now := ⟨recovering, summaries_of_existing silent⟩
  split
  · refine triple_bind (triple_weaken (abandon_keeps status) (fun _ same => same ▸ done) (fun _ _ kept => kept) fun _ kept => kept.1)
      fun _ => triple_pure fun _ kept => kept
  refine triple_bind (triple_weaken (recoverRelease_spec answers) (fun _ same => same ▸ ready) (fun _ _ ready => ready)
    fun _ sound => sound) fun context => ?_
  split
  · refine triple_bind (triple_weaken (abandon_keeps status) (fun _ ready => ⟨ready.1.sound, ready.1.settled⟩) (fun _ _ kept => kept)
      fun _ kept => kept.1) fun _ => triple_pure fun _ kept => kept
  · refine triple_bind (finalize_recovered (fun hash last => ?_) answers.final) fun _ => triple_pure fun _ kept => kept
    rw [← recovering.journal]
    exact lastTransaction_sent last

theorem execute_sound (fresh : Fresh job initial) (answers : LiveAnswers) (crashed unfinished : Bool) :
    Sound job chain initial (execute job chain answers crashed unfinished initial) := by
  have spec := @withdrawRetainedProfit_spec job chain initial fresh answers initial rfl
  unfold execute
  rcases ran : (withdrawRetainedProfit job chain answers).run initial with ⟨outcome, after⟩
  rw [ran] at spec
  cases outcome with
  | ok => exact spec.1
  | error e =>
    dsimp only
    split
    · exact spec
    · exact Sound.frame spec rfl rfl rfl

theorem afterEvent_sound (event : Event) (sound : Sound job chain initial state) : Sound job chain initial (afterEvent job chain state event) := by
  cases event with
  | recover answers =>
    exact left_keeps (triple_weaken (recoverRetainedProfit_spec answers) (fun _ sound => sound) (fun _ _ kept => kept.1)
      fun _ sound => sound) sound
  | mark status => exact sound.frame rfl rfl rfl

/-- Whatever crashes and however often it is recovered, a withdrawal leaves principal and held fees alone,
and its held profit is what the ledger says: each transaction has no entries or the two of its swap, with
the amounts it moved, and the release is there at most once. A live execution or a recovery that returns has
recorded every swap the chain confirms. -/
theorem withdrawal_run (fresh : Fresh job initial) (live : LiveAnswers) (crashed unfinished : Bool) (events : List Event) :
    let final := run (afterEvent job chain) (execute job chain live crashed unfinished initial) events
    (∀ token, (parts job final.store token).principal = (parts job initial.store token).principal ∧
      (parts job final.store token).heldFee = (parts job initial.store token).heldFee ∧
      (parts job final.store token).heldProfit = (parts job initial.store token).heldProfit +
        (ledgerNet job final.store.ledger token - ledgerNet job initial.store.ledger token)) ∧
    (summaries job final.store.ledger).length ≤ 1 ∧
    (∀ row ∈ jobRows job final, recordedEntries job final.store.ledger row.hash = [] ∨
      ∃ context ∈ final.context, ∃ swap ∈ context.swaps, swap.stepIndex = row.stepIndex ∧
        Recorded job chain final.store.ledger swap row.hash) ∧
    (∀ after, (withdrawRetainedProfit job chain live).run initial = (.ok (), after) → Complete job chain after) ∧
    ∀ answers outcome after, (recoverRetainedProfit job chain answers).run final = (.ok outcome, after) →
      Settled job chain answers.fate after := by
  have step : ∀ (state : WithdrawalState) (event : Event), Sound job chain initial state →
      Sound job chain initial (afterEvent job chain state event) := fun _ event sound => afterEvent_sound event sound
  have sound := run_keeps_all step (execute_sound fresh live crashed unfinished) events
  refine ⟨fun token => ?_, sound.single, fun row member => ?_, fun after returned => ?_, fun answers outcome after returned => ?_⟩
  · rw [sound.explained token]
    exact ⟨rfl, rfl, rfl⟩
  · exact (sound.recorded row member).imp_left fun clean => clean.1
  · have spec := @withdrawRetainedProfit_spec job chain initial fresh live initial rfl
    rw [returned] at spec
    exact spec.2
  · have spec := recoverRetainedProfit_spec answers _ sound
    rw [returned] at spec
    exact spec.2

def oneSwap : ProfitJob := ⟨1, 7, 1, 2, .usdg, 6, 9⟩

def retaining : WithdrawalState where
  store :=
    { strategies := Table.empty.put ⟨7, some 1, false⟩
      allocations := Table.empty.put ⟨7, 5, 150⟩
      components := Table.empty.put ⟨7, 5, ⟨30, 20, 100⟩, by decide⟩
      ledger := [] }
  status := none
  context := none
  journal := []

theorem retaining_fresh : Fresh oneSwap retaining :=
  ⟨rfl, rfl, fun _ member => (by cases member), fun _ member => (by cases member)⟩

def swapping (spent : ℕ) : ChainFacts oneSwap.owner :=
  ChainFacts.ofEntries 2 (fun _ => .success) (fun _ => 0) (fun _ => [⟨5, .transfer 2 3 spent⟩, ⟨6, .transfer 3 2 90⟩]) fun _ => 0

/-- The process dies between the receipt of the swap and its record, where `dies` says so. -/
def liveAnswers (dies : Bool) : LiveAnswers where
  admitted := .ok [5, 6]
  conversions _ := { minOut := .ok 80, before := .ok fun _ => 1000, swap := { hash := 50 }, after := if dies then .error .transport else .ok () }
  mark := .ok (90, 90)
  unwrap := { hash := 51 }
  final := { balances := .ok fun _ => 1000 }

def recoveryAnswers : RecoveryAnswers where
  fate _ := .confirmed
  balances _ := .ok fun _ => 1000
  mark := .ok (90, 90)
  final := { balances := .ok fun _ => 1000 }

def recovered (spent : ℕ) : WithdrawalState :=
  run (afterEvent oneSwap (swapping spent)) (execute oneSwap (swapping spent) (liveAnswers true) true true retaining)
    [.mark .recovery, .recover recoveryAnswers, .recover recoveryAnswers]

theorem withdrawal_run_recovered :
    (summaries oneSwap (recovered 100).store.ledger).length ≤ 1 ∧ (summaries oneSwap (recovered 100).store.ledger).length = 1 ∧
      (recovered 100).store.ledger.length = 3 ∧ parts oneSwap (recovered 100).store 5 = ⟨30, 20, 0⟩ ∧
      parts oneSwap (recovered 100).store 6 = ⟨0, 0, 0⟩ :=
  ⟨(@withdrawal_run oneSwap (swapping 100) retaining retaining_fresh (liveAnswers true) true true
      [.mark .recovery, .recover recoveryAnswers, .recover recoveryAnswers]).2.1,
    by decide, by decide, by decide, by decide⟩

def refusedSwap : WithdrawalState :=
  run (afterEvent oneSwap (swapping 60)) (execute oneSwap (swapping 60) (liveAnswers false) false true retaining)
    [.recover recoveryAnswers, .recover recoveryAnswers]

/-- Live execution and every recovery refuse the swap, so its amounts never move. -/
theorem partial_swap_never_moves :
    (swapping 60).moved 50 5 = -60 ∧ jobRows oneSwap refusedSwap = [⟨1, 1, 50⟩] ∧ refusedSwap.status = some .recovery ∧
      refusedSwap.store.ledger = [] ∧ parts oneSwap refusedSwap.store 5 = ⟨30, 20, 100⟩ ∧
      ((recoverRetainedProfit oneSwap (swapping 60) recoveryAnswers).run refusedSwap).1 = .error .unsupportedToken := by
  refine ⟨by decide, by decide, by decide, by decide, by decide, ?_⟩
  decide

end LpTerminal.Withdrawal
