import LpTerminal.Withdrawal.ProfitWithdrawal

/-!
The law of a withdrawal: the ledger explains every held profit, each transaction of the job is recorded in
full or not at all, and the release at most once.
-/

namespace LpTerminal.Withdrawal

open Allocations Durable Fallible Receipts Recovery Store

variable {job : ProfitJob} {chain : ChainFacts job.owner} {initial state after : WithdrawalState}

def entryNet (job : ProfitJob) (token : Address) (entry : LedgerEntry) : ℤ :=
  if entry.strategyId = job.strategyId ∧ entry.token = some token then
    match entry.kind with
    | .profitWithdrawalSwapIn => -entry.amount.getD 0
    | .profitWithdrawalSwapOut => entry.amount.getD 0
    | .profitWithdrawal => -entry.amount.getD 0
    | _ => 0
  else 0

def ledgerNet (job : ProfitJob) (ledger : Ledger) (token : Address) : ℤ := (ledger.map (entryNet job token)).sum

def isSummary (job : ProfitJob) (entry : LedgerEntry) : Bool :=
  entry.strategyId = job.strategyId ∧ entry.jobId = some job.jobId ∧ entry.kind = .profitWithdrawal

def summaries (job : ProfitJob) (ledger : Ledger) : List LedgerEntry := ledger.filter (isSummary job)

def NamesHash (entry : LedgerEntry) (hash : Hash) : Prop :=
  entry.id = .profitIn hash ∨ entry.id = .profitOut hash ∨ entry.txHash = some hash

def Unrecorded (job : ProfitJob) (ledger : Ledger) (hash : Hash) : Prop :=
  recordedEntries job ledger hash = [] ∧ ∀ entry ∈ ledger, entry.id ≠ .profitIn hash ∧ entry.id ≠ .profitOut hash

def Recorded (job : ProfitJob) (chain : ChainFacts job.owner) (ledger : Ledger) (swap : ProfitSwapRecord) (hash : Hash) : Prop :=
  recordedEntries job ledger hash =
    [swapInEntry job swap hash (-chain.moved hash swap.tokenIn), swapOutEntry job swap hash (chain.moved hash swap.tokenOut)]

/-- Swap steps are the middle ones of their triples, one for each swap. -/
structure Planned (context : ProfitWithdrawalContext) : Prop where
  steps : ∀ swap ∈ context.swaps, swap.stepIndex % 3 = 1
  tokens : ∀ swap ∈ context.swaps, swap.tokenIn ≠ swap.tokenOut
  apart : context.swaps.Pairwise fun first second => first.stepIndex ≠ second.stepIndex

structure Sound (job : ProfitJob) (chain : ChainFacts job.owner) (initial state : WithdrawalState) : Prop where
  explained : ∀ token, parts job state.store token = shifted (parts job initial.store token)
    (ledgerNet job state.store.ledger token - ledgerNet job initial.store.ledger token)
  hashes : ∀ entry ∈ state.store.ledger, ∀ hash, NamesHash entry hash → ∃ row ∈ state.journal, row.hash = hash
  single : (summaries job state.store.ledger).length ≤ 1
  summaryIds : ∀ entry ∈ state.store.ledger, entry.id = .withdrawal job.jobId → isSummary job entry
  rowHashes : ∀ first ∈ jobRows job state, ∀ second ∈ jobRows job state, first.hash = second.hash → first = second
  rowSteps : ∀ first ∈ jobRows job state, ∀ second ∈ jobRows job state, first.stepIndex = second.stepIndex →
    first.stepIndex % 3 = 1 → first = second
  planned : ∀ context ∈ state.context, Planned context
  recorded : ∀ row ∈ jobRows job state, Unrecorded job state.store.ledger row.hash ∨
    ∃ context ∈ state.context, ∃ swap ∈ context.swaps, swap.stepIndex = row.stepIndex ∧
      Recorded job chain state.store.ledger swap row.hash

theorem insertOrIgnore_fresh {ledger : Ledger} {entry : LedgerEntry} (fresh : ∀ other ∈ ledger, other.id ≠ entry.id) :
    insertOrIgnore ledger entry = ledger ++ [entry] := by
  unfold insertOrIgnore
  rw [if_neg]
  simpa using fresh

theorem ledgerNet_append (ledger entries : Ledger) (token : Address) :
    ledgerNet job (ledger ++ entries) token = ledgerNet job ledger token + ledgerNet job entries token := by
  unfold ledgerNet
  rw [List.map_append, List.sum_append]

theorem ledgerNet_move (swap : ProfitSwapRecord) (hash : Hash) (spent gained : ℤ) (token : Address) :
    ledgerNet job [swapInEntry job swap hash spent, swapOutEntry job swap hash gained] token = moveOf swap spent gained token := by
  simp [ledgerNet, entryNet, swapInEntry, swapOutEntry, moveOf, eq_comm]

theorem ledgerNet_release (context : ProfitWithdrawalContext) (amountOut : ℤ) (finalTx : Option Hash) (token : Address) :
    ledgerNet job [withdrawalEntry job context amountOut finalTx] token = releaseOf context.settlementToken amountOut token := by
  simp [ledgerNet, entryNet, withdrawalEntry, releaseOf, eq_comm]

theorem recordedEntries_append (ledger entries : Ledger) (hash : Hash) :
    recordedEntries job (ledger ++ entries) hash = recordedEntries job ledger hash ++ recordedEntries job entries hash :=
  List.filter_append ..

theorem shifted_shifted (parts : AllocationComponent) (first second : ℤ) :
    shifted (shifted parts first) second = shifted parts (first + second) := by
  simp [shifted, add_assoc]

theorem parts_appended {profit : Address → ℤ} {entries : List LedgerEntry}
    (parts : ∀ token, parts job state.store token = shifted (parts job initial.store token)
      (ledgerNet job state.store.ledger token - ledgerNet job initial.store.ledger token))
    (updated : Updated job state after profit entries) (appended : after.store.ledger = state.store.ledger ++ entries)
    (explains : ∀ token, ledgerNet job entries token = profit token) (token : Address) :
    Withdrawal.parts job after.store token = shifted (Withdrawal.parts job initial.store token)
      (ledgerNet job after.store.ledger token - ledgerNet job initial.store.ledger token) := by
  rw [updated.parts, parts, shifted_shifted, appended, ledgerNet_append, explains]
  exact congrArg _ (by omega)

theorem jobRows_same (journal : after.journal = state.journal) : jobRows job after = jobRows job state := by
  unfold jobRows
  rw [journal]

theorem Sound.frame (sound : Sound job chain initial state) (store : after.store = state.store) (context : after.context = state.context)
    (journal : after.journal = state.journal) : Sound job chain initial after where
  explained := store ▸ sound.explained
  hashes := by rw [store, journal]; exact sound.hashes
  single := store ▸ sound.single
  summaryIds := store ▸ sound.summaryIds
  rowHashes := jobRows_same journal ▸ sound.rowHashes
  rowSteps := jobRows_same journal ▸ sound.rowSteps
  planned := context ▸ sound.planned
  recorded := by rw [store, context, jobRows_same journal]; exact sound.recorded

variable {context : ProfitWithdrawalContext}

theorem Sound.replan (sound : Sound job chain initial state) (planned : Planned context)
    (gains : ∀ old ∈ state.context, ∀ swap ∈ old.swaps, swap ∈ context.swaps) :
    Sound job chain initial { state with context := some context } where
  explained := sound.explained
  hashes := sound.hashes
  single := sound.single
  summaryIds := sound.summaryIds
  rowHashes := sound.rowHashes
  rowSteps := sound.rowSteps
  planned := fun other same => Option.some.inj same ▸ planned
  recorded row member := by
    rcases sound.recorded row member with clean | ⟨old, here, swap, known, step, recorded⟩
    · exact Or.inl clean
    · exact Or.inr ⟨context, rfl, swap, gains old here swap known, step, recorded⟩

def withRow (job : ProfitJob) (state : WithdrawalState) (stepIndex : ℕ) (hash : Hash) : WithdrawalState :=
  { state with journal := state.journal ++ [⟨job.jobId, stepIndex, hash⟩] }

theorem jobRows_withRow (stepIndex : ℕ) (hash : Hash) :
    jobRows job (withRow job state stepIndex hash) = jobRows job state ++ [⟨job.jobId, stepIndex, hash⟩] := by
  simp [jobRows, withRow]

section

variable (sound : Sound job chain initial state)
include sound

theorem Sound.unrecorded {hash : Hash} (fresh : ∀ row ∈ state.journal, row.hash ≠ hash) :
    Unrecorded job state.store.ledger hash := by
  have unnamed : ∀ entry ∈ state.store.ledger, ¬ NamesHash entry hash := by
    intro entry member names
    obtain ⟨row, here, same⟩ := sound.hashes entry member hash names
    exact fresh row here same
  refine ⟨List.filter_eq_nil_iff.mpr fun entry member chosen => ?_, fun entry member => ?_⟩
  · have matched := of_decide_eq_true chosen
    exact unnamed entry member (Or.inr (Or.inr matched.2.1))
  · exact ⟨fun same => unnamed entry member (Or.inl same), fun same => unnamed entry member (Or.inr (Or.inl same))⟩

theorem Sound.send {stepIndex : ℕ} {hash : Hash} (fresh : ∀ row ∈ state.journal, row.hash ≠ hash)
    (first : stepIndex % 3 = 1 → ∀ row ∈ jobRows job state, row.stepIndex ≠ stepIndex) :
    Sound job chain initial (withRow job state stepIndex hash) where
  explained := sound.explained
  hashes entry member named names := by
    obtain ⟨row, here, same⟩ := sound.hashes entry member named names
    exact ⟨row, List.mem_append_left _ here, same⟩
  single := sound.single
  summaryIds := sound.summaryIds
  rowHashes := by
    have apart : ∀ row ∈ jobRows job state, row.hash ≠ hash := fun row member => fresh row (List.mem_of_mem_filter member)
    rw [jobRows_withRow]
    intro one here two there same
    rcases List.mem_append.mp here with old | new <;> rcases List.mem_append.mp there with old' | new'
    · exact sound.rowHashes one old two old' same
    · cases List.mem_singleton.mp new'
      exact absurd same (apart one old)
    · cases List.mem_singleton.mp new
      exact absurd same.symm (apart two old')
    · exact (List.mem_singleton.mp new).trans (List.mem_singleton.mp new').symm
  rowSteps := by
    rw [jobRows_withRow]
    intro one here two there same swapStep
    rcases List.mem_append.mp here with old | new <;> rcases List.mem_append.mp there with old' | new'
    · exact sound.rowSteps one old two old' same swapStep
    · cases List.mem_singleton.mp new'
      change one.stepIndex = stepIndex at same
      rw [same] at swapStep
      exact absurd same (first swapStep one old)
    · cases List.mem_singleton.mp new
      exact absurd same.symm (first swapStep two old')
    · exact (List.mem_singleton.mp new).trans (List.mem_singleton.mp new').symm
  planned := sound.planned
  recorded := by
    rw [jobRows_withRow]
    intro row member
    rcases List.mem_append.mp member with old | new
    · exact sound.recorded row old
    · cases List.mem_singleton.mp new
      exact Or.inl (sound.unrecorded fresh)

theorem Sound.moved (here : state.context = some context)
    {swap : ProfitSwapRecord} (known : swap ∈ context.swaps) {row : SentTransaction} (sent : row ∈ jobRows job state)
    (step : row.stepIndex = swap.stepIndex) (clean : Unrecorded job state.store.ledger row.hash)
    (updated : Updated job state after (moveOf swap (-chain.moved row.hash swap.tokenIn) (chain.moved row.hash swap.tokenOut))
      [swapInEntry job swap row.hash (-chain.moved row.hash swap.tokenIn),
        swapOutEntry job swap row.hash (chain.moved row.hash swap.tokenOut)]) :
    Sound job chain initial after ∧ Recorded job chain after.store.ledger swap row.hash ∧
      after.store.ledger = state.store.ledger ++ [swapInEntry job swap row.hash (-chain.moved row.hash swap.tokenIn),
        swapOutEntry job swap row.hash (chain.moved row.hash swap.tokenOut)] := by
  set input := swapInEntry job swap row.hash (-chain.moved row.hash swap.tokenIn) with inputIs
  set output := swapOutEntry job swap row.hash (chain.moved row.hash swap.tokenOut) with outputIs
  have appended : after.store.ledger = state.store.ledger ++ [input, output] := by
    rw [updated.ledger, List.foldl_cons, List.foldl_cons, List.foldl_nil, insertOrIgnore_fresh fun other member => (clean.2 other member).1,
      insertOrIgnore_fresh, List.append_assoc]
    · rfl
    · intro other member
      rcases List.mem_append.mp member with old | new
      · exact (clean.2 other old).2
      · rw [List.mem_singleton.mp new, inputIs, outputIs]
        exact fun same => by cases same
  have journal : after.journal = state.journal := by rw [updated.elsewhere]
  have context' : after.context = state.context := by rw [updated.elsewhere]
  have own : recordedEntries job [input, output] row.hash = [input, output] := by
    simp [recordedEntries, inputIs, outputIs, swapInEntry, swapOutEntry]
  have others : ∀ hash, hash ≠ row.hash → recordedEntries job [input, output] hash = [] := by
    intro hash other
    simp [recordedEntries, inputIs, outputIs, swapInEntry, swapOutEntry, Ne.symm other]
  have recorded : Recorded job chain after.store.ledger swap row.hash := by
    unfold Recorded
    rw [appended, recordedEntries_append, clean.1, own]
    rfl
  have summariesSame : summaries job after.store.ledger = summaries job state.store.ledger := by
    rw [appended, summaries, List.filter_append]
    simp [isSummary, inputIs, outputIs, swapInEntry, swapOutEntry, summaries]
  refine ⟨⟨?_, ?_, ?_, ?_, ?_, ?_, ?_, ?_⟩, recorded, appended⟩
  · exact parts_appended sound.explained updated appended fun token => ledgerNet_move swap row.hash _ _ token
  · rw [appended, journal]
    intro entry member hash names
    rcases List.mem_append.mp member with old | new
    · exact sound.hashes entry old hash names
    · refine ⟨row, List.mem_of_mem_filter sent, ?_⟩
      rcases List.mem_pair.mp new with rfl | rfl
      · rcases names with same | same | same <;> cases same
        · rfl
        · rfl
      · rcases names with same | same | same <;> cases same
        · rfl
        · rfl
  · rw [summariesSame]
    exact sound.single
  · rw [appended]
    intro entry member named
    rcases List.mem_append.mp member with old | new
    · exact sound.summaryIds entry old named
    · rcases List.mem_pair.mp new with rfl | rfl <;> cases named
  · rw [jobRows_same journal]
    exact sound.rowHashes
  · rw [jobRows_same journal]
    exact sound.rowSteps
  · rw [context']
    exact sound.planned
  · rw [jobRows_same journal, context']
    intro other member
    by_cases same : other.hash = row.hash
    · rw [sound.rowHashes other member row sent same]
      exact Or.inr ⟨context, here, swap, known, step.symm, recorded⟩
    · rcases sound.recorded other member with unrecorded | ⟨context, at', swap, known, step, kept⟩
      · refine Or.inl ⟨?_, fun entry member => ?_⟩
        · rw [appended, recordedEntries_append, unrecorded.1, others other.hash same]
          rfl
        · rw [appended] at member
          rcases List.mem_append.mp member with old | new
          · exact unrecorded.2 entry old
          · rcases List.mem_pair.mp new with rfl | rfl
            · exact ⟨fun id => same (LedgerId.profitIn.inj id).symm, fun id => (by cases id)⟩
            · exact ⟨fun id => (by cases id), fun id => same (LedgerId.profitOut.inj id).symm⟩
      · refine Or.inr ⟨context, at', swap, known, step, ?_⟩
        unfold Recorded
        rw [appended, recordedEntries_append, kept, others other.hash same]
        rfl

theorem Sound.released (silent : summaries job state.store.ledger = [])
    {amountOut : ℤ} {finalTx : Option Hash}
    (sent : ∀ hash ∈ finalTx, ∃ row ∈ state.journal, row.hash = hash)
    (updated : Updated job state after (releaseOf context.settlementToken amountOut) [withdrawalEntry job context amountOut finalTx]) :
    Sound job chain initial after ∧ after.store.ledger = state.store.ledger ++ [withdrawalEntry job context amountOut finalTx] := by
  set entry := withdrawalEntry job context amountOut finalTx with entryIs
  have fresh : ∀ other ∈ state.store.ledger, other.id ≠ entry.id := by
    intro other member same
    have summary := sound.summaryIds other member same
    have listed : other ∈ summaries job state.store.ledger := List.mem_filter.mpr ⟨member, summary⟩
    rw [silent] at listed
    cases listed
  have appended : after.store.ledger = state.store.ledger ++ [entry] := by
    rw [updated.ledger, List.foldl_cons, List.foldl_nil, insertOrIgnore_fresh fresh]
  have journal : after.journal = state.journal := by rw [updated.elsewhere]
  have context' : after.context = state.context := by rw [updated.elsewhere]
  have unlisted : ∀ hash, recordedEntries job after.store.ledger hash = recordedEntries job state.store.ledger hash := by
    intro hash
    rw [appended, recordedEntries_append]
    simp [recordedEntries, entryIs, withdrawalEntry]
  refine ⟨⟨?_, ?_, ?_, ?_, ?_, ?_, ?_, ?_⟩, appended⟩
  · exact parts_appended sound.explained updated appended fun token => ledgerNet_release context amountOut finalTx token
  · rw [appended, journal]
    intro other member hash names
    rcases List.mem_append.mp member with old | new
    · exact sound.hashes other old hash names
    · rw [List.mem_singleton.mp new] at names
      rcases names with same | same | same
      · cases same
      · cases same
      · exact sent hash same
  · rw [appended, summaries, List.filter_append]
    unfold summaries at silent
    rw [silent]
    exact (List.length_filter_le _ _)
  · rw [appended]
    intro other member named
    rcases List.mem_append.mp member with old | new
    · exact sound.summaryIds other old named
    · rw [List.mem_singleton.mp new]
      simp [isSummary, entryIs, withdrawalEntry]
  · rw [jobRows_same journal]
    exact sound.rowHashes
  · rw [jobRows_same journal]
    exact sound.rowSteps
  · rw [context']
    exact sound.planned
  · rw [jobRows_same journal, context']
    intro row member
    rcases sound.recorded row member with unrecorded | ⟨context, here, swap, known, step, kept⟩
    · refine Or.inl ⟨(unlisted row.hash).trans unrecorded.1, fun other member => ?_⟩
      rw [appended] at member
      rcases List.mem_append.mp member with old | new
      · exact unrecorded.2 other old
      · rw [List.mem_singleton.mp new]
        exact ⟨fun same => (by cases same), fun same => (by cases same)⟩
    · refine Or.inr ⟨context, here, swap, known, step, ?_⟩
      unfold Recorded
      rw [unlisted, kept]

end

end LpTerminal.Withdrawal
