import LpTerminal.Emerging.ActorsSweep

/-!
The stored balances after any run of scans, rewinds and sweeps are the fold of the canonical transfers.
-/

namespace LpTerminal.Emerging

def consumedRow (token : Address) (watermark : ℕ) (row : ChainEvent) : Option TransferDelta :=
  if isTransferOf token row ∧ row.rid ≤ watermark then delta row else none

def consumed (events : ChainEvents) (token : Address) (watermark : ℕ) : List TransferDelta :=
  events.filterMap (consumedRow token watermark)

def history (events : ChainEvents) (token : Address) : List TransferDelta :=
  (stream events token).filterMap delta

def pending (events : ChainEvents) (token : Address) (watermark : ℕ) : List TransferDelta :=
  (transfersAfter events token watermark).filterMap delta

variable {events : ChainEvents} {token : Address} {w : ℕ}

theorem consumed_eq : consumed events token w = ((stream events token).filter fun row => row.rid ≤ w).filterMap delta := by
  unfold consumed stream
  rw [List.filter_filter, List.filterMap_filter]
  apply List.filterMap_congr
  intro row _
  unfold consumedRow
  by_cases transfer : isTransferOf token row = true <;> by_cases early : row.rid ≤ w <;> simp [transfer, early]

theorem mem_transfersAfter {row : ChainEvent} :
    row ∈ transfersAfter events token w ↔ row ∈ events ∧ isTransferOf token row ∧ w < row.rid := by
  unfold transfersAfter stream
  rw [List.mem_filter, List.mem_filter, and_assoc, decide_eq_true_eq]

theorem consumed_pending (numbered : Numbered events) : consumed events token w ++ pending events token w = history events token := by
  have whole := @filter_rid (stream events token) (numbered.sorted.filter _) w
  unfold pending transfersAfter history
  rw [consumed_eq, ← List.filterMap_append, whole]

theorem consumed_zero (numbered : Numbered events) : consumed events token 0 = [] := by
  apply List.filterMap_eq_nil_iff.mpr
  intro row member
  have positive := (numbered.bounded row member).1
  unfold consumedRow
  rw [if_neg fun early => by omega]

variable {rows : ChainEvents} {progress : Progress}

theorem consumeRow_ledger :
    (rows.foldl consumeRow progress).ledger = consume progress.ledger (rows.filterMap delta) := by
  induction rows generalizing progress with
  | nil => rfl
  | cons row rest ih =>
    rw [List.foldl_cons, ih]
    cases read : delta row with
    | none =>
      unfold consumeRow
      rw [List.filterMap_cons_none read, read]
    | some d =>
      unfold consumeRow
      rw [List.filterMap_cons_some read, read]
      rfl

theorem consumeRow_reach (sorted : rows.Pairwise fun first second => first.rid < second.rid)
    (after : ∀ row ∈ rows, progress.watermark < row.rid) {bound : ℕ} (start : progress.watermark ≤ bound)
    (within : ∀ row ∈ rows, row.rid ≤ bound) :
    progress.watermark ≤ (rows.foldl consumeRow progress).watermark ∧ (rows.foldl consumeRow progress).watermark ≤ bound ∧
      progress.lastBlock ≤ (rows.foldl consumeRow progress).lastBlock ∧
      ∀ row ∈ rows, (delta row).isSome → row.rid ≤ (rows.foldl consumeRow progress).watermark ∧
        row.blockNumber ≤ (rows.foldl consumeRow progress).lastBlock := by
  induction rows generalizing progress with
  | nil => exact ⟨le_refl _, start, le_refl _, by simp⟩
  | cons row rest ih =>
    obtain ⟨ahead, tail⟩ := List.pairwise_cons.mp sorted
    obtain ⟨first, later⟩ := List.forall_mem_cons.mp after
    obtain ⟨own, others⟩ := List.forall_mem_cons.mp within
    rw [List.foldl_cons]
    cases read : delta row with
    | none =>
      have same : consumeRow progress row = progress := by
        unfold consumeRow
        rw [read]
      rw [same]
      obtain ⟨least, most, block, each⟩ := ih tail later start others
      refine ⟨least, most, block, List.forall_mem_cons.mpr ⟨fun decoded => ?_, each⟩⟩
      rw [read] at decoded
      cases decoded
    | some d =>
      have next : consumeRow progress row =
          ⟨applyDelta progress.ledger d, row.rid, max progress.lastBlock row.blockNumber⟩ := by
        unfold consumeRow
        rw [read]
      rw [next]
      obtain ⟨least, most, block, each⟩ := @ih ⟨applyDelta progress.ledger d, row.rid, max progress.lastBlock row.blockNumber⟩
        tail ahead own others
      refine ⟨by dsimp only at least; omega, most, by dsimp only at block; omega, List.forall_mem_cons.mpr ⟨fun _ => ?_, each⟩⟩
      exact ⟨least, by dsimp only at block; omega⟩

structure Booked (balances : Balances) (issued removed : ℤ) (past : List TransferDelta) : Prop where
  tracks : Tracks balances past
  filled : ∀ a, ¬ Blank balances a
  minted : issued = Transfer.minted ZERO_ADDRESS past
  burned : removed = Transfer.burned ZERO_ADDRESS past
  sum : sum balances = issued - removed

def Below (events : ChainEvents) (token : Address) (watermark block : ℕ) : Prop :=
  ∀ row ∈ events, isTransferOf token row → row.rid ≤ watermark → (delta row).isSome → row.blockNumber ≤ block

def Kept (store : ActorStore) (token : Address) : Prop :=
  match store.states token with
  | none => store.balances token = .empty
  | some state =>
    state.watermarkRowid ≤ store.events.length ∧
      (state.reconcileStatus = some .reorgStale → store.balances token = .empty) ∧
      (state.reconcileStatus ≠ some .reorgStale → ∃ block, state.supplyBlock = some block ∧
        (archivedAtOrBelow store.events token block = 0 →
          Booked (store.balances token) state.minted state.burned (consumed store.events token state.watermarkRowid) ∧
            Below store.events token state.watermarkRowid block))

theorem booked_empty : Booked .empty 0 0 [] where
  tracks := ⟨rfl, fun _ _ => rfl, fun _ _ => le_refl _⟩
  filled a blank := by cases blank
  minted := rfl
  burned := rfl
  sum := rfl

/-- No transfer overdraws its sender, a transfer of nothing leaves no blank row, and no account that
has a stored row is left with nothing. -/
def Clean (store : ActorStore) (token : Address) : Prop :=
  let start := startingProgress (markStale store token) token
  Transfer.Covered ZERO_ADDRESS [] (history store.events token) ∧
    Transfer.Refilled ZERO_ADDRESS (consumed store.events token start.watermark) (pending store.events token start.watermark) ∧
    ∀ row ∈ start.ledger.balances.rows, Transfer.balance (history store.events token) row.1 ≠ 0

instance (store : ActorStore) (token : Address) : Decidable (Clean store token) := by
  unfold Clean
  infer_instance

/-- The stored rows are the balances of the canonical transfers, without a row for a balance of nothing. -/
structure Exact (store : ActorStore) (token : Address) : Prop where
  rows : ∀ a, (store.balances token).get? a =
    if a = ZERO_ADDRESS ∨ Transfer.balance (history store.events token) a = 0 then none
    else some (a, Transfer.balance (history store.events token) a)
  total : sum (store.balances token) =
    Transfer.minted ZERO_ADDRESS (history store.events token) - Transfer.burned ZERO_ADDRESS (history store.events token)
  recorded : ∃ state, store.states token = some state ∧ state.balanceSum = sum (store.balances token) ∧
    state.minted = Transfer.minted ZERO_ADDRESS (history store.events token) ∧
    state.burned = Transfer.burned ZERO_ADDRESS (history store.events token) ∧ state.totalSupply = state.minted - state.burned

theorem Booked.get? {balances : Balances} {issued removed : ℤ} {past : List TransferDelta} (booked : Booked balances issued removed past)
    (a : Address) : balances.get? a = if a = ZERO_ADDRESS ∨ Transfer.balance past a = 0 then none else some (a, Transfer.balance past a) := by
  by_cases source : a = ZERO_ADDRESS
  · rw [if_pos (Or.inl source), source]
    exact booked.tracks.zero
  · have value := booked.tracks.held a source
    by_cases nothing : Transfer.balance past a = 0
    · rw [if_pos (Or.inr nothing)]
      cases read : balances.get? a with
      | none => rfl
      | some row =>
        rw [get?_held read, value, nothing] at read
        exact absurd read (booked.filled a)
    · rw [if_neg (not_or.mpr ⟨source, nothing⟩), ← value]
      exact get?_of_held (by rw [value]; exact nothing)

theorem Kept.congr {store : ActorStore} {after : ChainEvents} (kept : Kept store token) (length : store.events.length ≤ after.length)
    (quiet : ∀ block, archivedAtOrBelow after token block = 0 → archivedAtOrBelow store.events token block = 0)
    (same : ∀ w block, w ≤ store.events.length → archivedAtOrBelow after token block = 0 → Below store.events token w block →
      consumed after token w = consumed store.events token w ∧ Below after token w block) :
    Kept { store with events := after } token := by
  unfold Kept at kept ⊢
  dsimp only at kept ⊢
  cases read : store.states token with
  | none =>
    rw [read] at kept
    exact kept
  | some state =>
    rw [read] at kept
    obtain ⟨bound, stale, live⟩ := kept
    refine ⟨by omega, stale, fun status => ?_⟩
    obtain ⟨block, reads, booked⟩ := live status
    refine ⟨block, reads, fun none => ?_⟩
    obtain ⟨booked, below⟩ := booked (quiet block none)
    obtain ⟨eq, below⟩ := same _ block bound none below
    exact ⟨by rw [eq]; exact booked, below⟩

theorem Kept.insertEvent {store : ActorStore} (kept : Kept store token) (e : EventInsert) :
    Kept { store with events := insertEvent store.events e } token := by
  unfold Emerging.insertEvent
  split
  · exact kept
  · apply kept.congr
    · simp
    · intro block none
      simpa [archivedAtOrBelow] using none
    · intro w block bound _ below
      have fresh : ¬ store.events.length + 1 ≤ w := by omega
      constructor
      · unfold consumed
        simp [consumedRow, fresh]
      · intro row member transfer early decoded
        rcases List.mem_append.mp member with old | last
        · exact below row old transfer early decoded
        · rw [List.mem_singleton.mp last] at early
          exact absurd early fresh

theorem Kept.insertEvents {store : ActorStore} (kept : Kept store token) (batch : List EventInsert) :
    Kept { store with events := batch.foldl Emerging.insertEvent store.events } token := by
  induction batch generalizing store with
  | nil => exact kept
  | cons e rest ih => exact ih (kept.insertEvent e)

theorem Kept.dateBlock {store : ActorStore} (kept : Kept store token) (block ts : ℕ) :
    Kept { store with events := dateBlock store.events block ts } token := by
  unfold Emerging.dateBlock
  apply kept.congr
  · simp
  · intro height none
    unfold archivedAtOrBelow at none ⊢
    rw [List.countP_map] at none
    rw [← none]
    apply List.countP_congr
    intro row _
    dsimp only [Function.comp]
    split <;> rfl
  · intro w height _ _ below
    constructor
    · unfold consumed
      rw [List.filterMap_map]
      apply List.filterMap_congr
      intro row _
      dsimp only [Function.comp]
      split <;> rfl
    · intro row member
      obtain ⟨old, inside, rfl⟩ := List.mem_map.mp member
      have own := below old inside
      split <;> exact own

theorem Kept.archiveAbove {store : ActorStore} (kept : Kept store token) (ancestor : ℕ) :
    Kept { store with events := archiveAbove store.events ancestor } token := by
  unfold Emerging.archiveAbove
  apply kept.congr
  · simp
  · intro block none
    unfold archivedAtOrBelow at none ⊢
    rw [List.countP_map, List.countP_eq_zero] at none
    apply List.countP_eq_zero.mpr
    intro row member archived
    apply none row member
    simp only [decide_eq_true_eq] at archived
    simp [archived]
  · intro w block _ none below
    unfold archivedAtOrBelow at none
    rw [List.countP_map, List.countP_eq_zero] at none
    constructor
    · unfold consumed
      rw [List.filterMap_map]
      apply List.filterMap_congr
      intro row member
      dsimp only [Function.comp]
      split
      · -- an archived row was not consumed: it would make the ledger stale
        rename_i orphan
        have quiet := none row member
        simp only [Function.comp, if_pos orphan, decide_eq_true_eq] at quiet
        have out : consumedRow token w { row with canonical := false } = Option.none := if_neg (by simp [isTransferOf])
        rw [out]
        unfold consumedRow
        split
        · rename_i taken
          cases decoded : delta row with
          | none => rfl
          | some d =>
            have low := below row member taken.1 taken.2 (by rw [decoded]; rfl)
            have named : row.token = some token := by
              have transfer := taken.1
              simp only [isTransferOf, decide_eq_true_eq] at transfer
              exact transfer.1
            exact absurd ⟨named, trivial, low⟩ quiet
        · rfl
      · rfl
    · intro row member
      obtain ⟨old, inside, rfl⟩ := List.mem_map.mp member
      split
      · intro transfer
        exact absurd transfer (by simp [isTransferOf])
      · exact below old inside

variable {store : ActorStore} {other : Address} {reply : Option ℤ}

theorem markStale_events : (markStale store token).events = store.events := by
  unfold markStale
  split
  · rfl
  · split <;> rfl

theorem markStale_other (apart : other ≠ token) :
    (markStale store token).balances other = store.balances other ∧ (markStale store token).states other = store.states other := by
  unfold markStale
  split
  · exact ⟨rfl, rfl⟩
  · split
    · exact ⟨Function.update_of_ne apart _ _, Function.update_of_ne apart _ _⟩
    · exact ⟨rfl, rfl⟩

theorem sweepToken_events : (sweepToken reply store token).events = store.events := markStale_events

theorem sweepToken_other (apart : other ≠ token) :
    (sweepToken reply store token).balances other = store.balances other ∧
      (sweepToken reply store token).states other = store.states other := by
  obtain ⟨balances, states⟩ := @markStale_other token store other apart
  exact ⟨(Function.update_of_ne apart _ _).trans balances, (Function.update_of_ne apart _ _).trans states⟩

theorem Kept.frame {after : ActorStore} (kept : Kept store token) (events : after.events = store.events)
    (balances : after.balances token = store.balances token) (states : after.states token = store.states token) : Kept after token := by
  unfold Kept at kept ⊢
  rw [events, balances, states]
  exact kept

theorem Kept.markStale (kept : Kept store other) : Kept (markStale store token) other := by
  by_cases own : other = token
  · subst own
    unfold Emerging.markStale
    split
    · exact kept
    · split
      · unfold Kept
        simp
      · exact kept
  · obtain ⟨balances, states⟩ := @markStale_other token store other own
    exact kept.frame markStale_events balances states

theorem start_booked (numbered : Numbered store.events) (kept : Kept store token) :
    Booked (startingProgress (markStale store token) token).ledger.balances
        (startingProgress (markStale store token) token).ledger.minted (startingProgress (markStale store token) token).ledger.burned
        (consumed store.events token (startingProgress (markStale store token) token).watermark) ∧
      Below store.events token (startingProgress (markStale store token) token).watermark
        (startingProgress (markStale store token) token).lastBlock ∧
      (startingProgress (markStale store token) token).watermark ≤ store.events.length ∧
      (startingProgress (markStale store token) token).ledger.balances =
        if (markStale store token).isStale token then .empty else (markStale store token).balances token := by
  have nothing : ∀ row ∈ store.events, row.rid ≤ 0 → False := fun row member early => by
    have positive := (numbered.bounded row member).1
    omega
  have empty : Booked emptyLedger.balances emptyLedger.minted emptyLedger.burned (consumed store.events token 0) ∧
      Below store.events token 0 0 ∧ 0 ≤ store.events.length := by
    rw [consumed_zero numbered]
    exact ⟨booked_empty, fun row member _ early => absurd early (nothing row member), Nat.zero_le _⟩
  obtain ⟨booked, below, bound⟩ := empty
  unfold Kept at kept
  cases read : store.states token with
  | none =>
    rw [read] at kept
    have same : Emerging.markStale store token = store := by
      unfold Emerging.markStale
      rw [read]
    rw [same]
    unfold startingProgress ActorStore.isStale
    rw [read, kept]
    exact ⟨booked, below, bound, rfl⟩
  | some state =>
    rw [read] at kept
    obtain ⟨least, _, live⟩ := kept
    by_cases status : state.reconcileStatus = some .reorgStale
    · have same : Emerging.markStale store token = store := by
        unfold Emerging.markStale
        rw [read]
        exact if_neg fun marked => marked.1 status
      rw [same]
      unfold startingProgress ActorStore.isStale
      rw [read]
      simp only [status, Option.any_some, decide_true, if_true]
      exact ⟨booked, below, bound, rfl⟩
    · obtain ⟨block, reads, kept⟩ := live status
      by_cases quiet : archivedAtOrBelow store.events token block = 0
      · have same : Emerging.markStale store token = store := by
          unfold Emerging.markStale
          rw [read]
          exact if_neg fun marked => by
            have found := marked.2
            rw [reads] at found
            simp [quiet] at found
        obtain ⟨booked, below⟩ := kept quiet
        rw [same]
        unfold startingProgress ActorStore.isStale
        rw [read]
        simp only [status, Option.any_some, decide_false, if_false, reads, Option.getD_some]
        exact ⟨booked, below, least, rfl⟩
      · have marked : state.reconcileStatus ≠ some .reorgStale ∧
            state.supplyBlock.any (fun block => 0 < archivedAtOrBelow store.events token block) := by
          refine ⟨status, ?_⟩
          rw [reads]
          simpa using Nat.pos_of_ne_zero quiet
        unfold Emerging.markStale startingProgress ActorStore.isStale
        rw [read]
        simp only [if_pos marked, Function.update_self, Option.any_some, decide_true, if_true]
        exact ⟨booked, below, bound, rfl⟩

theorem upsert_eq {stored final : Balances} (covers : ∀ a, final.get? a = none → stored.get? a = none) :
    final.rows.foldl Table.put stored = final := by
  have apart : final.rows.Pairwise fun first second => first.1 ≠ second.1 := final.sorted.imp fun before => before.ne
  apply Table.ext_get?
  intro a
  cases read : final.get? a with
  | some row =>
    rw [← Table.get?_key read]
    exact Table.get?_foldl_put_of_mem apart (Table.get?_mem read)
  | none =>
    rw [Table.get?_foldl_put_other, covers a read]
    intro row member same
    have found := Table.get?_of_mem member
    rw [← same, read] at found
    cases found

theorem consume_booked {start : Ledger} {past batch : List TransferDelta} (booked : Booked start.balances start.minted start.burned past)
    (covered : Transfer.Covered ZERO_ADDRESS past batch) (refilled : Transfer.Refilled ZERO_ADDRESS past batch) :
    Booked (consume start batch).balances (consume start batch).minted (consume start batch).burned (past ++ batch) := by
  have tracks := consume_tracks booked.tracks covered
  have moved := consume_sum booked.tracks covered
  refine ⟨tracks, ?_, ?_, ?_, ?_⟩
  · intro a blank
    by_cases source : a = ZERO_ADDRESS
    · rw [Blank, source, tracks.zero] at blank
      cases blank
    · exact booked.filled a (consume_blank booked.tracks covered refilled source blank).1
  · rw [consume_minted, booked.minted, Transfer.minted_append]
  · rw [consume_burned, booked.burned, Transfer.burned_append]
  · rw [consume_minted, consume_burned, moved, booked.sum]
    omega

theorem final_reach (numbered : Numbered events) {start : Progress} (bound : start.watermark ≤ events.length)
    (below : Below events token start.watermark start.lastBlock) :
    ((transfersAfter events token start.watermark).foldl consumeRow start).watermark ≤ events.length ∧
      consumed events token ((transfersAfter events token start.watermark).foldl consumeRow start).watermark = history events token ∧
      Below events token ((transfersAfter events token start.watermark).foldl consumeRow start).watermark
        ((transfersAfter events token start.watermark).foldl consumeRow start).lastBlock := by
  have sorted : (transfersAfter events token start.watermark).Pairwise fun first second => first.rid < second.rid :=
    (numbered.sorted.filter _).filter _
  obtain ⟨grows, most, block, each⟩ := consumeRow_reach sorted (fun row inside => (mem_transfersAfter.mp inside).2.2) bound
    (fun row inside => (numbered.bounded row (mem_transfersAfter.mp inside).1).2)
  refine ⟨most, ?_, ?_⟩
  · have none : pending events token ((transfersAfter events token start.watermark).foldl consumeRow start).watermark = [] := by
      apply List.filterMap_eq_nil_iff.mpr
      intro row inside
      obtain ⟨inside, transfer, late⟩ := mem_transfersAfter.mp inside
      cases decoded : delta row with
      | none => rfl
      | some d =>
        have reached := (each row (mem_transfersAfter.mpr ⟨inside, transfer, by omega⟩) (by rw [decoded]; rfl)).1
        omega
    have whole := @consumed_pending events token
      ((transfersAfter events token start.watermark).foldl consumeRow start).watermark numbered
    rwa [none, List.append_nil] at whole
  · intro row inside transfer early decoded
    by_cases old : row.rid ≤ start.watermark
    · exact (below row inside transfer old decoded).trans block
    · exact (each row (mem_transfersAfter.mpr ⟨inside, transfer, by omega⟩) decoded).2

theorem sweepToken_booked (numbered : Numbered store.events) (kept : Kept store token) (clean : Clean store token) :
    ∃ state, (sweepToken reply store token).states token = some state ∧
      Booked ((sweepToken reply store token).balances token) state.minted state.burned (history store.events token) ∧
      state.balanceSum = sum ((sweepToken reply store token).balances token) ∧ state.totalSupply = state.minted - state.burned ∧
      state.watermarkRowid ≤ store.events.length ∧ state.reconcileStatus ≠ some .reorgStale ∧
      consumed store.events token state.watermarkRowid = history store.events token ∧
      ∃ block, state.supplyBlock = some block ∧ Below store.events token state.watermarkRowid block := by
  obtain ⟨booked, below, bound, written⟩ := start_booked numbered kept
  obtain ⟨covered, refilled, unemptied⟩ := clean
  have whole := @consumed_pending store.events token (startingProgress (markStale store token) token).watermark numbered
  have ledger := @consumeRow_ledger (transfersAfter store.events token (startingProgress (markStale store token) token).watermark)
    (startingProgress (markStale store token) token)
  rw [← whole, Transfer.covered_append] at covered
  have final := consume_booked booked covered.2 refilled
  obtain ⟨most, reached, below⟩ := final_reach numbered bound below
  change Booked (consume _ (pending store.events token _)).balances _ _ _ at final
  unfold pending at final whole
  rw [← ledger, whole] at final
  have stored : (sweepToken reply store token).balances token =
      ((transfersAfter store.events token (startingProgress (markStale store token) token).watermark).foldl consumeRow
        (startingProgress (markStale store token) token)).ledger.balances := by
    unfold sweepToken
    dsimp only
    rw [Function.update_self, markStale_events, ← written]
    apply upsert_eq
    intro a missing
    cases read : (startingProgress (markStale store token) token).ledger.balances.get? a with
    | none => rfl
    | some row =>
      have named := Table.get?_key read
      have nonzero := unemptied row (Table.get?_mem read)
      rw [named] at nonzero
      have apart : a ≠ ZERO_ADDRESS := by
        intro source
        rw [source, booked.tracks.zero] at read
        cases read
      rw [← final.tracks.held a apart] at nonzero
      rw [get?_of_held nonzero] at missing
      cases missing
  refine ⟨_, Function.update_self _ _ _, ?_, ?_, rfl, ?_, ?_, ?_, ?_⟩
  · rw [stored]
    dsimp only
    rw [markStale_events]
    exact final
  · rw [stored]
    dsimp only
    rw [markStale_events]
  · dsimp only
    rw [markStale_events]
    exact most
  · dsimp only
    unfold reconcile
    split
    · split <;> decide
    · split
      · decide
      · assumption
  · dsimp only
    rw [markStale_events]
    exact reached
  · dsimp only
    rw [markStale_events]
    exact ⟨_, rfl, below⟩

theorem sweepToken_kept (numbered : Numbered store.events) (kept : ∀ t, Kept store t) (clean : Clean store token) (t : Address) :
    Kept (sweepToken reply store token) t := by
  by_cases own : t = token
  · subst own
    obtain ⟨state, read, booked, _, _, bound, status, reached, block, reads, below⟩ := @sweepToken_booked t store reply numbered (kept t) clean
    unfold Kept
    rw [read, sweepToken_events]
    exact ⟨bound, fun stale => absurd stale status, fun _ => ⟨block, reads, fun _ => ⟨by rw [reached]; exact booked, below⟩⟩⟩
  · obtain ⟨balances, states⟩ := @sweepToken_other token store t reply own
    exact (kept t).frame sweepToken_events balances states

theorem sweepToken_exact (numbered : Numbered store.events) (kept : Kept store token) (clean : Clean store token) :
    Exact (sweepToken reply store token) token := by
  obtain ⟨state, read, booked, balanceSum, supply, _⟩ := @sweepToken_booked token store reply numbered kept clean
  have same : history (sweepToken reply store token).events token = history store.events token := by rw [sweepToken_events]
  refine ⟨?_, ?_, state, read, balanceSum, ?_, ?_, supply⟩
  · rw [same]
    exact booked.get?
  · rw [same, booked.sum, booked.minted, booked.burned]
  · rw [same, booked.minted]
  · rw [same, booked.burned]

variable {totalSupply : Address → Option ℤ} {budget : ℕ} {tokens : List Address}

def CleanSweep (totalSupply : Address → Option ℤ) : ℕ → List Address → ActorStore → Prop
  | _, [], _ => True
  | 0, token :: rest, store => Clean store token ∧ CleanSweep totalSupply 0 rest (sweepToken none store token)
  | budget + 1, token :: rest, store =>
    Clean store token ∧ CleanSweep totalSupply budget rest (sweepToken (totalSupply token) store token)

def decideCleanSweep (totalSupply : Address → Option ℤ) :
    ∀ (budget : ℕ) (tokens : List Address) (store : ActorStore), Decidable (CleanSweep totalSupply budget tokens store)
  | _, [], _ => .isTrue trivial
  | 0, token :: rest, store =>
    have := decideCleanSweep totalSupply 0 rest (sweepToken none store token)
    inferInstanceAs (Decidable (Clean store token ∧ CleanSweep totalSupply 0 rest (sweepToken none store token)))
  | budget + 1, token :: rest, store =>
    have := decideCleanSweep totalSupply budget rest (sweepToken (totalSupply token) store token)
    inferInstanceAs (Decidable (Clean store token ∧ CleanSweep totalSupply budget rest (sweepToken (totalSupply token) store token)))

instance : Decidable (CleanSweep totalSupply budget tokens store) := decideCleanSweep totalSupply budget tokens store

def CleanStep (store : ActorStore) : ActorEvent → Prop
  | .sweep tokens budget totalSupply => CleanSweep totalSupply budget tokens store
  | .interrupted tokens budget totalSupply _ => CleanSweep totalSupply budget tokens store
  | _ => True

instance (store : ActorStore) (event : ActorEvent) : Decidable (CleanStep store event) := by
  cases event <;> (unfold CleanStep; infer_instance)

structure Sound (store : ActorStore) : Prop where
  numbered : Numbered store.events
  kept : ∀ token, Kept store token

theorem sound_empty : Sound emptyActorStore := ⟨numbered_nil, fun _ => rfl⟩

theorem Sound.sweepToken (sound : Sound store) (clean : Clean store token) : Sound (sweepToken reply store token) where
  numbered := by rw [sweepToken_events]; exact sound.numbered
  kept := sweepToken_kept sound.numbered sound.kept clean

theorem Sound.sweep (sound : Sound store) (clean : CleanSweep totalSupply budget tokens store) :
    Sound (runEmergingActorsSweep totalSupply budget tokens store) := by
  induction tokens generalizing budget store with
  | nil => cases budget <;> exact sound
  | cons token rest ih =>
    cases budget with
    | zero => exact ih (sound.sweepToken clean.1) clean.2
    | succ budget => exact ih (sound.sweepToken clean.1) clean.2

theorem Exact.frame {after : ActorStore} (exact : Exact store token) (events : after.events = store.events)
    (balances : after.balances token = store.balances token) (states : after.states token = store.states token) : Exact after token where
  rows := by rw [events, balances]; exact exact.rows
  total := by rw [events, balances]; exact exact.total
  recorded := by rw [events, balances, states]; exact exact.recorded

theorem sweep_other (apart : token ∉ tokens) :
    (runEmergingActorsSweep totalSupply budget tokens store).balances token = store.balances token ∧
      (runEmergingActorsSweep totalSupply budget tokens store).states token = store.states token ∧
      (runEmergingActorsSweep totalSupply budget tokens store).events = store.events := by
  induction tokens generalizing budget store with
  | nil => cases budget <;> exact ⟨rfl, rfl, rfl⟩
  | cons first rest ih =>
    have own : token ≠ first := fun same => apart (same ▸ List.mem_cons_self)
    have later : token ∉ rest := fun member => apart (List.mem_cons_of_mem first member)
    cases budget with
    | zero =>
      obtain ⟨balances, states⟩ := @sweepToken_other first store token none own
      obtain ⟨tailBalances, tailStates, tailEvents⟩ := @ih (sweepToken none store first) 0 later
      exact ⟨tailBalances.trans balances, tailStates.trans states, tailEvents.trans sweepToken_events⟩
    | succ budget =>
      obtain ⟨balances, states⟩ := @sweepToken_other first store token (totalSupply first) own
      obtain ⟨tailBalances, tailStates, tailEvents⟩ := @ih (sweepToken (totalSupply first) store first) budget later
      exact ⟨tailBalances.trans balances, tailStates.trans states, tailEvents.trans sweepToken_events⟩

theorem sweep_exact (sound : Sound store) (clean : CleanSweep totalSupply budget tokens store) (member : token ∈ tokens) :
    Exact (runEmergingActorsSweep totalSupply budget tokens store) token := by
  induction tokens generalizing budget store with
  | nil => cases member
  | cons first rest ih =>
    have turn : ∀ (reply : Option ℤ) (left : ℕ), Clean store first → CleanSweep totalSupply left rest (sweepToken reply store first) →
        Exact (runEmergingActorsSweep totalSupply left rest (sweepToken reply store first)) token := by
      intro reply left own others
      by_cases later : token ∈ rest
      · exact ih (sound.sweepToken own) others later
      · have here : token = first := (List.mem_cons.mp member).resolve_right later
        obtain ⟨balances, states, events⟩ := @sweep_other token (sweepToken reply store first) totalSupply left rest later
        subst here
        exact (sweepToken_exact sound.numbered (sound.kept token) own).frame events balances states
    cases budget with
    | zero => exact turn none 0 clean.1 clean.2
    | succ budget => exact turn (totalSupply first) budget clean.1 clean.2

theorem Sound.step (sound : Sound store) {event : ActorEvent} (clean : CleanStep store event) : Sound (actorStep store event) := by
  cases event with
  | commit batch =>
    exact ⟨sound.numbered.insertEvents batch, fun token => (sound.kept token).insertEvents batch⟩
  | rewind ancestor => exact ⟨sound.numbered.archiveAbove ancestor, fun token => (sound.kept token).archiveAbove ancestor⟩
  | date block ts => exact ⟨sound.numbered.dateBlock block ts, fun token => (sound.kept token).dateBlock block ts⟩
  | sweep tokens budget totalSupply => exact sound.sweep clean
  | interrupted tokens budget totalSupply last =>
    have swept := sound.sweep clean
    refine ⟨?_, fun token => (swept.kept token).markStale⟩
    change Numbered (markStale _ last).events
    rw [markStale_events]
    exact swept.numbered

def Swept (store : ActorStore) (token : Address) : Prop :=
  ∃ past tokens budget totalSupply,
    Trace.Along actorStep CleanStep emptyActorStore (past ++ [ActorEvent.sweep tokens budget totalSupply]) ∧ token ∈ tokens ∧
      store = Trace.run actorStep emptyActorStore (past ++ [ActorEvent.sweep tokens budget totalSupply])

/-- After every sweep the stored balances are the fold of the canonical transfers, and any two runs
over the same canonical transfers store the same rows, however they were cut into batches. -/
theorem swept_exact (swept : Swept store token) :
    Exact store token ∧ ∀ other, Swept other token → history other.events token = history store.events token →
      other.balances token = store.balances token := by
  have each : ∀ reached, Swept reached token → Exact reached token := by
    rintro reached ⟨past, tokens, budget, totalSupply, along, member, rfl⟩
    obtain ⟨before, last⟩ := Trace.along_append.mp along
    have step : ∀ state event, Sound state → CleanStep state event → Sound (actorStep state event) :=
      fun state event sound clean => sound.step clean
    have sound := Trace.run_keeps step sound_empty before
    rw [Trace.run_append]
    exact sweep_exact sound last.1 member
  have exact := each store swept
  refine ⟨exact, fun other also same => Table.ext_get? fun a => ?_⟩
  rw [(each other also).rows a, exact.rows a, same]

/-- A transfer of token 7, the `n`-th of its block. -/
def sampleTransfer (n block : ℕ) (sender receiver value : ℕ) : EventInsert where
  txHash := n
  logIndex := 0
  blockNumber := block
  blockHash := block
  txIndex := n
  blockTs := none
  contract := 7
  kind := .transfer
  poolKey := none
  token := some 7
  payload := ⟨some sender, some receiver, some value, none, none, none⟩

def sampleSweep : ActorEvent := .sweep [7] 1 fun _ => none

def twoSweeps : List ActorEvent :=
  [.commit [sampleTransfer 1 100 0 1 10], sampleSweep, .commit [sampleTransfer 2 101 1 2 4]]

def oneSweep : List ActorEvent :=
  [.commit [sampleTransfer 1 100 0 1 10, sampleTransfer 2 101 1 2 4]]

theorem swept_exact_batches :
    Exact (Trace.run actorStep emptyActorStore (twoSweeps ++ [sampleSweep])) 7 ∧
      (Trace.run actorStep emptyActorStore (oneSweep ++ [sampleSweep])).balances 7 =
        (Trace.run actorStep emptyActorStore (twoSweeps ++ [sampleSweep])).balances 7 := by
  have split : Swept (Trace.run actorStep emptyActorStore (twoSweeps ++ [sampleSweep])) 7 :=
    ⟨twoSweeps, [7], 1, fun _ => none, by decide, List.mem_singleton_self 7, rfl⟩
  have whole : Swept (Trace.run actorStep emptyActorStore (oneSweep ++ [sampleSweep])) 7 :=
    ⟨oneSweep, [7], 1, fun _ => none, by decide, List.mem_singleton_self 7, rfl⟩
  obtain ⟨exact, same⟩ := swept_exact split
  exact ⟨exact, same _ whole (by decide)⟩

/-- An account that a later batch empties keeps its stored row. -/
theorem emptied_account_stays :
    ¬ Exact (Trace.run actorStep emptyActorStore
      [.commit [sampleTransfer 1 100 0 1 10], sampleSweep, .commit [sampleTransfer 2 101 1 2 10], sampleSweep]) 7 := by
  intro exact
  have row := exact.rows 1
  revert row
  decide

end LpTerminal.Emerging
