import LpTerminal.Catalog.V3Snapshot

/-!
A publication holds exactly the pools of its pinned block, whatever attempts went before it.
-/

namespace LpTerminal.Catalog.V3Snapshot

open Fallible Durable

variable {world : World} {α β : Type}

structure Drifts (store store' : Store) : Prop where
  keeps : ∀ row ∈ store.pools.rows, row.proto = .univ3 → row ∈ store'.pools.rows
  fresh : ∀ row ∈ store'.pools.rows, row.proto = .univ3 → row ∈ store.pools.rows ∨ row.snapshotGeneration = none
  importKeys : store'.importKeys = store.importKeys
  published : store'.published = store.published ∧ store'.cursor = store.cursor

theorem Drifts.refl (store : Store) : Drifts store store := ⟨fun _ member _ => member, fun _ member _ => .inl member, rfl, rfl, rfl⟩

theorem Drifts.trans {first second third : Store} (left : Drifts first second) (right : Drifts second third) : Drifts first third where
  keeps row member own := right.keeps row (left.keeps row member own) own
  fresh row member own := (right.fresh row member own).elim (fun inside => left.fresh row inside own) .inr
  importKeys := right.importKeys.trans left.importKeys
  published := ⟨right.published.1.trans left.published.1, right.published.2.trans left.published.2⟩

def Idle (m : Import world α) : Prop := ∀ process, Drifts process.store (m.run process).2.store

theorem idle_pure (a : α) : Idle (pure a : Import world α) := fun process => .refl process.store

theorem idle_fail (e : Failure) : Idle (fail e : Import world α) := fun process => .refl process.store

theorem idle_read : Idle (read : Import world (Process world)) := fun process => .refl process.store

theorem idle_reply (answer : Result α) : Idle (reply answer : Import world α) := fun process => .refl process.store

variable {m : Import world α}

theorem idle_bind {f : α → Import world β} (first : Idle m) (next : ∀ a, Idle (f a)) : Idle (m >>= f) := by
  intro process
  have drifted := first process
  rw [bind_run]
  rcases ran : m.run process with ⟨outcome, process'⟩
  rw [ran] at drifted
  cases outcome with
  | ok a => exact drifted.trans (next a process')
  | error e => exact drifted

theorem idle_rescue {answer : Failure → Option α} (idle : Idle m) : Idle (rescue answer m) := by
  intro process
  have drifted := idle process
  unfold rescue
  rcases ran : m.run process with ⟨outcome, process'⟩
  rw [ran] at drifted
  cases outcome with
  | ok a => simpa only [ran] using drifted
  | error e =>
    simp only [ran]
    cases answer e <;> exact drifted

theorem idle_ran (idle : Idle m) {process process' : Process world} {outcome : Result α}
    (ran : m.run process = (outcome, process')) : Drifts process.store process'.store := by
  have drifted := idle process
  rw [ran] at drifted
  exact drifted

theorem idle_await {answer : Reply world → Result α} : Idle (await answer) := by
  intro process
  unfold await
  rw [bind_run, run_read]
  dsimp only
  split
  · exact .refl process.store
  · rename_i reply rest _
    exact ⟨fun row member own => reply.meanwhile.keeps member own, fun row member own => reply.meanwhile.fresh member own, rfl, rfl, rfl⟩

theorem idle_assertCanonicalSnapshot {block : Nat} {hash : Digest} : Idle (assertCanonicalSnapshot block hash : Import world Unit) :=
  idle_bind idle_await fun _ => idle_reply _

variable {indexed : GraphMeta}

theorem idle_resumePin {a : Attempt world} : Idle (resumePin a indexed) := by
  unfold resumePin canonicalStill
  refine idle_bind idle_read fun process => ?_
  split
  · exact idle_pure _
  · refine idle_bind (idle_rescue (idle_bind idle_assertCanonicalSnapshot fun _ => idle_pure _)) fun still => ?_
    split <;> exact idle_pure _

theorem idle_pinBlock {a : Attempt world} {resumed : Option Generation} : Idle (pinBlock a indexed resumed) := by
  unfold pinBlock
  refine idle_bind (idle_reply _) fun _ => ?_
  dsimp only
  split
  · exact idle_bind (idle_pure _) fun _ => idle_bind idle_assertCanonicalSnapshot fun _ => idle_pure _
  · split
    · exact idle_bind (idle_pure _) fun _ => idle_bind idle_assertCanonicalSnapshot fun _ => idle_pure _
    · exact idle_bind idle_await fun _ => idle_bind idle_assertCanonicalSnapshot fun _ => idle_pure _

theorem idle_fetchPage {a : Attempt world} {target : Generation} {resumed : Bool} {progress : Progress} :
    Idle (fetchPage a target resumed progress) :=
  idle_bind idle_await fun _ => idle_bind (idle_reply _) fun _ => idle_bind (idle_reply _) fun _ => idle_bind (idle_reply _) fun _ =>
    idle_bind idle_read fun _ => idle_bind (idle_reply _) fun _ => idle_bind (idle_reply _) fun _ => idle_bind (idle_reply _) fun _ =>
    idle_bind (idle_reply _) fun _ => idle_pure _

theorem idle_blockRows {a : Attempt world} {target : Generation} {block rounds : Nat} {after : Address} :
    Idle (blockRows a target block rounds after) := by
  induction rounds generalizing after with
  | zero => exact idle_fail _
  | succ rounds ih =>
    unfold blockRows
    refine idle_bind idle_await fun body => idle_bind (idle_reply _) fun _ => ?_
    split
    · split
      · exact idle_pure _
      · exact idle_bind ih fun _ => idle_pure _
    · exact idle_pure _

theorem idle_completeRows {a : Attempt world} {target : Generation} {pools : List GraphPool} : Idle (completeRows a target pools) := by
  unfold completeRows
  split
  · split
    · exact idle_bind idle_read fun _ => idle_bind idle_blockRows fun _ => idle_pure _
    · exact idle_pure _
  · exact idle_pure _

variable {parsed : List Parsed} {known : List (Nat × Int)}

theorem idle_learnSpacings : Idle (learnSpacings known parsed : Import world _) := by
  unfold learnSpacings
  split
  · exact idle_pure _
  · exact idle_bind idle_await fun _ => idle_bind (idle_reply _) fun _ => idle_pure _

variable {candidates : List GraphPool}

theorem idle_verifyRows : Idle (verifyRows candidates known : Import world _) :=
  idle_bind (idle_reply _) fun _ => idle_bind idle_await fun _ => idle_bind (idle_reply _) fun _ => idle_bind idle_learnSpacings fun _ =>
    idle_bind (idle_reply _) fun _ => idle_bind idle_await fun _ => idle_bind (idle_reply _) fun _ => idle_pure _

theorem await_returns {answer : Reply world → Result α} {a : α} {process process' : Process world}
    (ran : (await answer).run process = (.ok a, process')) : ∃ reply : Reply world, answer reply = .ok a := by
  unfold await at ran
  obtain ⟨same, _, _, ran⟩ := bind_returns ran
  split at ran
  · cases ran
  · rename_i reply rest _
    obtain ⟨_, _, _, ran⟩ := bind_returns ran
    refine ⟨reply, ?_⟩
    cases told : answer reply with
    | ok b =>
      rw [told] at ran
      cases ran
      rfl
    | error e =>
      rw [told] at ran
      cases ran

theorem reply_returns {answer : Result α} {a : α} {process process' : Process world}
    (ran : (reply answer : Import world α).run process = (.ok a, process')) : answer = .ok a ∧ process' = process := by
  cases ran
  exact ⟨rfl, rfl⟩

theorem pure_returns {a b : α} {process process' : Process world} (ran : (pure a : Import world α).run process = (.ok b, process')) :
    a = b ∧ process' = process := by
  cases ran
  exact ⟨rfl, rfl⟩

theorem require_ok {condition : Prop} [Decidable condition] {message : String} {u : Unit} :
    require condition message = .ok u ↔ condition := demand_ok

theorem forM_ok {check : α → Result Unit} {items : List α} {u : Unit} (passed : items.forM check = .ok u) :
    ∀ item ∈ items, check item = .ok () := by
  induction items with
  | nil => intro item member; cases member
  | cons first rest ih =>
    change (check first >>= fun _ => rest.forM check) = .ok u at passed
    obtain ⟨_, one, later⟩ := bind_ok passed
    intro item member
    rcases List.mem_cons.mp member with rfl | inside
    · exact one
    · exact ih later item inside

def snapshotPools (world : World) (target : Generation) : List GraphPool := (world.pools target.subgraphId target.blockHash).rows

theorem fetchPage_returns {a : Attempt world} {target : Generation} {resumed : Bool} {progress : Progress} {pools : List GraphPool}
    {count : Nat} {process process' : Process world}
    (ran : (fetchPage a target resumed progress).run process = (.ok (pools, count), process')) :
    BlockPages.IsPage GraphPool.createdBlock (snapshotPools world target) progress.cursorBlock a.pageSize pools ∧
      pools.length ≤ a.pageSize ∧ ∀ pool ∈ pools, pool.createdBlock ≤ target.block := by
  unfold fetchPage at ran
  obtain ⟨body, _, awaited, ran⟩ := bind_returns ran
  iterate 5 obtain ⟨_, _, _, ran⟩ := bind_returns ran
  obtain ⟨_, _, sized, ran⟩ := bind_returns ran
  obtain ⟨_, _, parsed, ran⟩ := bind_returns ran
  obtain ⟨_, _, _, ran⟩ := bind_returns ran
  obtain ⟨same, _⟩ := pure_returns ran
  cases same
  obtain ⟨reply, answered⟩ := await_returns awaited
  refine ⟨reply.page_faithful answered, require_ok.mp (reply_returns sized).1, fun pool member => ?_⟩
  exact (require_ok.mp (forM_ok (reply_returns parsed).1 pool member)).2

theorem blockRows_returns {a : Attempt world} {target : Generation} {block rounds : Nat} {after : Address} {rows : List GraphPool}
    {process process' : Process world} (ran : (blockRows a target block rounds after).run process = (.ok rows, process')) :
    rows = (blockPools world target.subgraphId target.blockHash block).after (some after) ∧
      ∀ row ∈ rows, row.createdBlock ≤ target.block := by
  induction rounds generalizing after process process' rows with
  | zero => cases ran
  | succ rounds ih =>
    unfold blockRows at ran
    obtain ⟨body, _, awaited, ran⟩ := bind_returns ran
    obtain ⟨_, _, checked, ran⟩ := bind_returns ran
    obtain ⟨reply, answered⟩ := await_returns awaited
    have page := reply.blockPage_faithful answered
    have checks := (reply_returns checked).1
    unfold checkBlockPage at checks
    iterate 2 obtain ⟨_, _, checks⟩ := bind_ok checks
    obtain ⟨_, parsed, _⟩ := bind_ok checks
    have within : ∀ row ∈ body.pools, row.createdBlock ≤ target.block := fun row member =>
      (require_ok.mp (forM_ok parsed row member)).2
    unfold Table.page at page
    split at ran
    · rename_i last ends
      split at ran
      · rename_i short
        obtain ⟨rfl, _⟩ := pure_returns ran
        have whole : ((blockPools world target.subgraphId target.blockHash block).after (some after)).length ≤ a.pageSize := by
          rw [page, List.length_take] at short
          omega
        rw [List.take_of_length_le whole] at page
        exact ⟨page, within⟩
      · obtain ⟨rest, _, later, ran⟩ := bind_returns ran
        obtain ⟨rfl, _⟩ := pure_returns ran
        obtain ⟨tail, withinTail⟩ := ih later
        have dropped := Table.after_last (show (Table.page _ (some after) a.pageSize).getLast? = some last from page ▸ ends)
        refine ⟨?_, fun row member => (List.mem_append.mp member).elim (within row) (withinTail row)⟩
        rw [tail, dropped, page, List.take_append_drop]
    · rename_i empty
      obtain ⟨rfl, _⟩ := pure_returns ran
      have none := List.getLast?_eq_none_iff.mp empty
      refine ⟨?_, within⟩
      rw [none] at page ⊢
      rcases List.take_eq_nil_iff.mp page.symm with zero | nil
      · exact absurd zero (Nat.pos_iff_ne_zero.mp a.positive)
      · exact nil.symm

theorem blockPools_after_zero (target : Generation) (block : Nat) :
    (blockPools world target.subgraphId target.blockHash block).after (some 0) =
      (snapshotPools world target).filter fun pool => pool.createdBlock = block := by
  unfold Table.after
  refine List.filter_eq_self.mpr fun pool member => ?_
  have inside := (Table.mem_keep.mp member).1
  simpa using world.nonzero _ _ pool inside

/-- Every pool between two creation blocks; a page that is not full comes with every pool that is left. -/
structure Candidates (world : World) (a : Attempt world) (target : Generation) (cursor next : Nat) (candidates : List GraphPool) :
    Prop where
  between : candidates.Perm ((snapshotPools world target).filter fun pool => cursor < pool.createdBlock ∧ pool.createdBlock ≤ next)
  ordered : cursor ≤ next
  within : next ≤ max cursor target.block
  reached : candidates ≠ [] → ∃ pool ∈ candidates, pool.createdBlock = next
  empty : candidates = [] → next = cursor
  last : candidates.length < a.pageSize → ∀ pool ∈ snapshotPools world target, pool.createdBlock ≤ next

theorem completeRows_returns {a : Attempt world} {target : Generation} {cursor : Nat} {pools candidates : List GraphPool}
    {process process' : Process world}
    (page : BlockPages.IsPage GraphPool.createdBlock (snapshotPools world target) cursor a.pageSize pools)
    (sized : pools.length ≤ a.pageSize) (within : ∀ pool ∈ pools, pool.createdBlock ≤ target.block)
    (ran : (completeRows a target pools).run process = (.ok candidates, process')) :
    ∃ next, Candidates world a target cursor next candidates := by
  unfold completeRows at ran
  split at ran
  · rename_i last ends
    have shown : last ∈ pools := List.mem_of_getLast? ends
    have beyond := (page.later shown).2
    split at ran
    · rename_i full
      obtain ⟨_, _, _, ran⟩ := bind_returns ran
      obtain ⟨tail, _, collected, ran⟩ := bind_returns ran
      obtain ⟨rfl, _⟩ := pure_returns ran
      obtain ⟨rows, _⟩ := blockRows_returns collected
      rw [blockPools_after_zero] at rows
      have whole : tail.Perm ((snapshotPools world target).filter fun pool => pool.createdBlock = last.createdBlock) := .of_eq rows
      have long := page.patched_length ends whole
      have own : last ∈ tail := whole.symm.subset (List.mem_filter.mpr ⟨(page.later shown).1, by simp⟩)
      refine ⟨last.createdBlock, page.patched ends whole, beyond.le, le_max_of_le_right (within last shown), fun _ => ?_, fun none => ?_,
        fun short => ?_⟩
      · exact ⟨last, List.mem_append_right _ own, rfl⟩
      · rw [none] at long
        have positive := a.positive
        rw [full, List.length_nil] at long
        omega
      · omega
    · rename_i short
      obtain ⟨rfl, _⟩ := pure_returns ran
      have most : ∀ pool ∈ pools, pool.createdBlock ≤ last.createdBlock := by
        intro pool member
        obtain ⟨front, split⟩ := List.getLast?_eq_some_iff.mp ends
        have sorted := page.sorted
        rw [split] at sorted member
        rcases List.mem_append.mp member with early | own
        · exact (List.pairwise_append.mp sorted).2.2 pool early last List.mem_cons_self
        · rw [List.mem_singleton.mp own]
      have rest := page.short (lt_of_le_of_ne sized short)
      refine ⟨last.createdBlock, BlockPages.narrowed rest most, beyond.le, le_max_of_le_right (within last shown),
        fun _ => ⟨last, shown, rfl⟩, fun none => ?_, fun _ pool member => ?_⟩
      · rw [none] at shown
        cases shown
      · by_cases later : cursor < pool.createdBlock
        · exact most pool (rest.symm.subset (List.mem_filter.mpr ⟨member, by simpa using later⟩))
        · omega
  · rename_i empty
    obtain ⟨rfl, _⟩ := pure_returns ran
    have none := List.getLast?_eq_none_iff.mp empty
    subst none
    have rest := page.short (show ([] : List GraphPool).length < a.pageSize from a.positive)
    refine ⟨cursor, BlockPages.narrowed rest (by simp), le_refl _, le_max_left _ _, fun some => absurd rfl some, fun _ => rfl,
      fun _ pool member => ?_⟩
    by_contra later
    have inside := rest.symm.subset (List.mem_filter.mpr ⟨member, by simpa using later⟩)
    cases inside

def Confirmed (world : World) (row : Parsed) : Prop :=
  world.getPool row.token0 row.token1 row.fee = some row.id ∧ world.feeAmountTickSpacing row.fee = some row.spacing

def Remembers (world : World) (known : List (Nat × Int)) : Prop :=
  ∀ fee spacing, known.lookup fee = some spacing → world.feeAmountTickSpacing fee = some spacing

theorem lookup_mem {fee : Nat} {spacing : Int} (found : known.lookup fee = some spacing) :
    (fee, spacing) ∈ known := by
  obtain ⟨before, after, split, _⟩ := List.lookup_eq_some_iff.mp found
  rw [split]
  exact List.mem_append_right _ List.mem_cons_self

theorem learnSpacings_returns {known known' : List (Nat × Int)} {process process' : Process world}
    (remembers : Remembers world known) (ran : (learnSpacings known parsed).run process = (.ok known', process')) :
    Remembers world known' := by
  unfold learnSpacings at ran
  split at ran
  · obtain ⟨rfl, _⟩ := pure_returns ran
    exact remembers
  · obtain ⟨answers, _, awaited, ran⟩ := bind_returns ran
    obtain ⟨found, _, collected, ran⟩ := bind_returns ran
    obtain ⟨rfl, _⟩ := pure_returns ran
    obtain ⟨reply, answered⟩ := await_returns awaited
    intro fee spacing told
    rw [List.lookup_append] at told
    cases old : known.lookup fee with
    | some before =>
      rw [old] at told
      cases told
      exact remembers fee spacing old
    | none =>
      rw [old] at told
      obtain ⟨missing, _, read⟩ := exists_item (collect_ok (reply_returns collected).1) (lookup_mem told)
      unfold readSpacing at read
      split at read
      · rename_i read'
        cases read
        exact reply.tickSpacing_faithful answered (Option.filter_eq_some_iff.mp read').1
      · cases read

theorem parseIdentity_pool {row : GraphPool} {identity : Identity} {parsed : Parsed} (read : parseIdentity row identity = .ok parsed) :
    parsed.toGraphPool = row := by
  unfold parseIdentity at read
  split at read
  · obtain ⟨_, _, read⟩ := bind_ok read
    iterate 2 obtain ⟨_, _, read⟩ := bind_ok read
    cases read
    rfl
  · cases read

theorem collect_pools {identities : Address → Identity} {rows : List GraphPool}
    (collected : collect (fun row => parseIdentity row (identities row.id)) rows = .ok parsed) :
    parsed.map (·.toGraphPool) = rows := by
  have related := (collect_ok collected).imp fun _ _ read => parseIdentity_pool read
  clear collected
  induction related with
  | nil => rfl
  | cons same _ ih => rw [List.map_cons, ih, same]

theorem verifyRows_returns {known known' : List (Nat × Int)}
    {process process' : Process world} (remembers : Remembers world known)
    (ran : (verifyRows candidates known).run process = (.ok (parsed, known'), process')) :
    parsed.map (·.toGraphPool) = candidates.mergeSort byBlock ∧ (parsed.map (·.id)).Nodup ∧ (∀ row ∈ parsed, Confirmed world row) ∧
      Remembers world known' := by
  unfold verifyRows at ran
  obtain ⟨_, _, distinct, ran⟩ := bind_returns ran
  obtain ⟨identities, _, _, ran⟩ := bind_returns ran
  obtain ⟨rows, _, collected, ran⟩ := bind_returns ran
  obtain ⟨learned, _, learning, ran⟩ := bind_returns ran
  obtain ⟨_, _, spaced, ran⟩ := bind_returns ran
  obtain ⟨answers, _, awaited, ran⟩ := bind_returns ran
  obtain ⟨_, _, verified, ran⟩ := bind_returns ran
  obtain ⟨same, _⟩ := pure_returns ran
  cases same
  obtain ⟨reply, answered⟩ := await_returns awaited
  have pools := collect_pools (reply_returns collected).1
  have remembered := learnSpacings_returns remembers learning
  have ids : parsed.map (·.id) = (candidates.mergeSort byBlock).map (·.id) := by
    rw [← pools, List.map_map]
    rfl
  refine ⟨pools, ids ▸ require_ok.mp (reply_returns distinct).1, fun row member => ⟨?_, ?_⟩, remembered⟩
  · exact reply.getPool_faithful answered (require_ok.mp (forM_ok (reply_returns verified).1 row member))
  · exact remembered _ _ (require_ok.mp (forM_ok (reply_returns spaced).1 row member))

theorem nextCursor_eq {cursor next : Nat}
    (pools : parsed.map (·.toGraphPool) = candidates.mergeSort byBlock) (most : ∀ pool ∈ candidates, pool.createdBlock ≤ next)
    (reached : candidates ≠ [] → ∃ pool ∈ candidates, pool.createdBlock = next) (empty : candidates = [] → next = cursor) :
    nextCursor cursor parsed = next := by
  have perm := List.mergeSort_perm candidates byBlock
  have sorted : (candidates.mergeSort byBlock).Pairwise fun left right => byBlock left right = true := by
    refine List.pairwise_mergeSort (fun a b c left right => ?_) (fun a b => ?_) candidates
    · simp only [byBlock, Bool.or_eq_true, Bool.and_eq_true, decide_eq_true_eq] at left right ⊢
      rcases left with early | ⟨same, id⟩ <;> rcases right with later | ⟨same', id'⟩
      · exact .inl (early.trans later)
      · exact .inl (same' ▸ early)
      · exact .inl (same ▸ later)
      · exact .inr ⟨same.trans same', id.trans id'⟩
    · simp only [byBlock, Bool.or_eq_true, Bool.and_eq_true, decide_eq_true_eq]
      rcases lt_trichotomy a.createdBlock b.createdBlock with early | same | late
      · exact .inl (.inl early)
      · exact (le_total a.id b.id).imp (fun id => .inr ⟨same, id⟩) fun id => .inr ⟨same.symm, id⟩
      · exact .inr (.inl late)
  unfold nextCursor
  cases ends : parsed.getLast? with
  | none =>
    have none := List.getLast?_eq_none_iff.mp ends
    rw [none, List.map_nil] at pools
    rw [← pools] at perm
    exact (empty perm.nil_eq.symm).symm
  | some row =>
    obtain ⟨front, split⟩ := List.getLast?_eq_some_iff.mp ends
    rw [split, List.map_append, List.map_singleton] at pools
    rw [← pools] at perm sorted
    have own : row.toGraphPool ∈ candidates := perm.subset (List.mem_append_right _ (List.mem_singleton.mpr rfl))
    have upper := most _ own
    obtain ⟨pool, member, same⟩ := reached (List.ne_nil_of_mem own)
    have lower : pool.createdBlock ≤ row.createdBlock := by
      rcases List.mem_append.mp (perm.symm.subset member) with early | last
      · have order := (List.pairwise_append.mp sorted).2.2 pool early row.toGraphPool (List.mem_singleton.mpr rfl)
        simp only [byBlock, Bool.or_eq_true, Bool.and_eq_true, decide_eq_true_eq] at order
        omega
      · rw [List.mem_singleton.mp last]
    change row.createdBlock = next
    omega

def Labelled (pools : Table V3Row.address) (rowGeneration : Uuid) (row : V3Row) : Prop :=
  row ∈ pools.rows ∧ row.proto = .univ3 ∧ row.snapshotGeneration = some rowGeneration

def Verified (world : World) (row : V3Row) : Prop :=
  world.getPool row.token0 row.token1 row.feePpm = some row.address ∧
    ∃ spacing, row.tickSpacing = some spacing ∧ world.feeAmountTickSpacing row.feePpm = some spacing

/-- The labelled rows are the listed pools, each confirmed by the factory. -/
structure Holds (world : World) (pools : Table V3Row.address) (rowGeneration : Uuid) (ids : List Address) : Prop where
  exact : ∀ address, (∃ row, Labelled pools rowGeneration row ∧ row.address = address) ↔ address ∈ ids
  verified : ∀ row, Labelled pools rowGeneration row → Verified world row

def Kept (before after : Table V3Row.address) : Prop :=
  ∀ row ∈ before.rows, row.proto = .univ3 → ∃ label, { row with snapshotGeneration := label } ∈ after.rows

theorem Kept.refl (pools : Table V3Row.address) : Kept pools pools := fun row member _ => ⟨row.snapshotGeneration, member⟩

theorem Kept.trans {first second third : Table V3Row.address} (left : Kept first second) (right : Kept second third) :
    Kept first third := by
  intro row member own
  obtain ⟨label, inside⟩ := left row member own
  obtain ⟨other, later⟩ := right _ inside own
  exact ⟨other, later⟩

theorem Drifts.kept {store store' : Store} (drifts : Drifts store store') : Kept store.pools store'.pools :=
  fun row member own => ⟨row.snapshotGeneration, drifts.keeps row member own⟩

theorem Drifts.labelled {store store' : Store} (drifts : Drifts store store') {rowGeneration : Uuid} {row : V3Row} :
    Labelled store'.pools rowGeneration row ↔ Labelled store.pools rowGeneration row := by
  constructor
  · rintro ⟨member, own, label⟩
    rcases drifts.fresh row member own with inside | none
    · exact ⟨inside, own, label⟩
    · rw [none] at label
      cases label
  · rintro ⟨member, own, label⟩
    exact ⟨drifts.keeps row member own, own, label⟩

variable {ids : List Address}

theorem Drifts.holds {store store' : Store} (drifts : Drifts store store') {rowGeneration : Uuid}
    (holds : Holds world store.pools rowGeneration ids) : Holds world store'.pools rowGeneration ids where
  exact address := by
    simp only [drifts.labelled]
    exact holds.exact address
  verified row labelled := holds.verified row (drifts.labelled.mp labelled)

variable {stored stored' : Table V3Row.address × Nat} {row : Parsed}

theorem storeRow_ok {rowGeneration : Uuid}
    (ran : storeRow rowGeneration stored row = .ok stored') :
    ∃ written : V3Row, stored'.1 = stored.1.put written ∧ written.address = row.id ∧ written.proto = .univ3 ∧
      written.snapshotGeneration = some rowGeneration ∧ written.token0 = row.token0 ∧ written.token1 = row.token1 ∧
      written.feePpm = row.fee ∧ written.tickSpacing = some row.spacing ∧
      ∀ old, stored.1.get? row.id = some old → ∃ label, { old with snapshotGeneration := label } = written := by
  unfold storeRow at ran
  split at ran
  · rename_i existing found
    obtain ⟨_, same, ran⟩ := bind_ok ran
    cases ran
    have same := require_ok.mp same
    simp only [sameIdentity, Bool.and_eq_true, decide_eq_true_eq] at same
    obtain ⟨⟨⟨⟨proto, token0⟩, token1⟩, fee⟩, spacing⟩ := same
    have named : existing.address = row.id := Table.get?_key found
    refine ⟨_, rfl, named, proto, rfl, token0, token1, fee, spacing, fun old read => ?_⟩
    rw [found] at read
    cases read
    exact ⟨_, rfl⟩
  · rename_i missing
    cases ran
    refine ⟨_, rfl, rfl, rfl, rfl, rfl, rfl, rfl, rfl, fun old read => ?_⟩
    rw [missing] at read
    cases read

theorem storeRow_kept {rowGeneration : Uuid}
    (ran : storeRow rowGeneration stored row = .ok stored') : Kept stored.1 stored'.1 := by
  obtain ⟨written, put, named, _, _, _, _, _, _, same⟩ := storeRow_ok ran
  intro other member own
  rw [put]
  by_cases here : other.address = row.id
  · have read := Table.get?_of_mem member
    rw [here] at read
    obtain ⟨label, eq⟩ := same other read
    exact ⟨label, eq ▸ Table.mem_put.mpr (.inl rfl)⟩
  · exact ⟨other.snapshotGeneration, Table.mem_put.mpr (.inr ⟨member, fun eq => here (eq.trans named)⟩)⟩

theorem storeRow_holds {rowGeneration : Uuid}
    (holds : Holds world stored.1 rowGeneration ids) (confirmed : Confirmed world row)
    (ran : storeRow rowGeneration stored row = .ok stored') : Holds world stored'.1 rowGeneration (ids ++ [row.id]) := by
  obtain ⟨written, put, named, own, label, token0, token1, fee, spacing, _⟩ := storeRow_ok ran
  have verified : Verified world written := by
    unfold Verified
    rw [token0, token1, fee, named]
    exact ⟨confirmed.1, row.spacing, spacing, confirmed.2⟩
  refine ⟨fun address => ?_, fun other labelled => ?_⟩
  · rw [List.mem_append, List.mem_singleton, ← holds.exact address, put]
    constructor
    · rintro ⟨other, ⟨member, proto, tag⟩, rfl⟩
      rcases Table.mem_put.mp member with rfl | ⟨inside, _⟩
      · exact .inr named
      · exact .inl ⟨other, ⟨inside, proto, tag⟩, rfl⟩
    · rintro (⟨other, ⟨member, proto, tag⟩, rfl⟩ | rfl)
      · by_cases here : other.address = written.address
        · exact ⟨written, ⟨Table.mem_put.mpr (.inl rfl), own, label⟩, here.symm⟩
        · exact ⟨other, ⟨Table.mem_put.mpr (.inr ⟨member, here⟩), proto, tag⟩, rfl⟩
      · exact ⟨written, ⟨Table.mem_put.mpr (.inl rfl), own, label⟩, named⟩
  · obtain ⟨member, proto, tag⟩ := labelled
    rw [put] at member
    rcases Table.mem_put.mp member with rfl | ⟨inside, _⟩
    · exact verified
    · exact holds.verified other ⟨inside, proto, tag⟩

theorem storeRows_ok {rowGeneration : Uuid} {rows : List Parsed}
    (holds : Holds world stored.1 rowGeneration ids) (confirmed : ∀ row ∈ rows, Confirmed world row)
    (ran : rows.foldlM (storeRow rowGeneration) stored = .ok stored') :
    Holds world stored'.1 rowGeneration (ids ++ rows.map (·.id)) ∧ Kept stored.1 stored'.1 := by
  induction rows generalizing stored ids with
  | nil =>
    cases ran
    rw [List.map_nil, List.append_nil]
    exact ⟨holds, Kept.refl _⟩
  | cons row rest ih =>
    rw [List.foldlM_cons] at ran
    obtain ⟨middle, one, later⟩ := bind_ok ran
    obtain ⟨held, kept⟩ := ih (storeRow_holds holds (confirmed row List.mem_cons_self) one)
      (fun other inside => confirmed other (List.mem_cons_of_mem _ inside)) later
    rw [List.map_cons, List.append_cons]
    exact ⟨held, (storeRow_kept one).trans kept⟩

def upTo (world : World) (target : Generation) (cursor : Nat) : List GraphPool :=
  (snapshotPools world target).filter fun pool => pool.createdBlock ≤ cursor

/-- The checkpoint of the store is that of a progress, whose rows are the pools up to its cursor. -/
structure Underway (world : World) (target : Generation) (rowGeneration : Uuid) (progress : Progress) (store : Store) : Prop where
  keys : ∃ poolCount, store.importKeys =
    some ⟨target, some target, some rowGeneration, some progress.cursorBlock, some progress.downloaded, poolCount⟩
  lower : UNI_V3_START_BLOCK - 1 ≤ progress.cursorBlock
  upper : progress.cursorBlock ≤ target.block
  remembers : Remembers world progress.tickSpacingByFee
  downloaded : progress.downloaded = (upTo world target progress.cursorBlock).length
  holds : Holds world store.pools rowGeneration ((upTo world target progress.cursorBlock).map (·.id))

def Checkpointed (world : World) (store : Store) : Prop :=
  ∀ keys target rowGeneration, store.importKeys = some keys → keys.generation = some target →
    keys.rowGeneration = some rowGeneration → ∃ progress, Underway world target rowGeneration progress store

structure Spent (used : List Uuid) (store : Store) : Prop where
  rows : ∀ row ∈ store.pools.rows, row.proto = .univ3 → ∀ label ∈ row.snapshotGeneration, label ∈ used
  keys : ∀ keys ∈ store.importKeys, ∀ label ∈ keys.rowGeneration, label ∈ used

/-- Every row of the venue is still there, and nothing was published. -/
structure Unpublished (before after : Store) : Prop where
  kept : Kept before.pools after.pools
  published : after.published = before.published ∧ after.cursor = before.cursor

structure Failed (world : World) (used : List Uuid) (before : Store) (store : Store) : Prop where
  checkpointed : Checkpointed world store
  spent : Spent used store
  unpublished : Unpublished before store

structure Going (world : World) (used : List Uuid) (before : Store) (target : Generation) (rowGeneration : Uuid)
    (progress : Progress) (store : Store) : Prop where
  underway : Underway world target rowGeneration progress store
  spent : Spent used store
  unpublished : Unpublished before store
  drawn : rowGeneration ∈ used

variable {used : List Uuid} {before : Store} {target : Generation} {rowGeneration : Uuid} {progress : Progress}
  {store store' : Store} {process process' : Process world}

theorem Underway.checkpointed (underway : Underway world target rowGeneration progress store) : Checkpointed world store := by
  intro keys other label stored generation row
  obtain ⟨poolCount, own⟩ := underway.keys
  rw [own] at stored
  cases stored
  cases generation
  cases row
  exact ⟨progress, underway⟩

theorem Underway.drifts (underway : Underway world target rowGeneration progress store) (drifts : Drifts store store') :
    Underway world target rowGeneration progress store' :=
  { underway with
    keys := by rw [drifts.importKeys]; exact underway.keys
    holds := drifts.holds underway.holds }

theorem Checkpointed.drifts (checkpointed : Checkpointed world store) (drifts : Drifts store store') : Checkpointed world store' := by
  intro keys target label stored generation row
  rw [drifts.importKeys] at stored
  obtain ⟨progress, underway⟩ := checkpointed keys target label stored generation row
  exact ⟨progress, underway.drifts drifts⟩

theorem Spent.drifts (spent : Spent used store) (drifts : Drifts store store') : Spent used store' where
  rows row member own label tag := by
    rcases drifts.fresh row member own with inside | none
    · exact spent.rows row inside own label tag
    · rw [none] at tag
      cases tag
  keys keys stored := spent.keys keys (drifts.importKeys ▸ stored)

theorem Unpublished.drifts (unpublished : Unpublished before store) (drifts : Drifts store store') : Unpublished before store' where
  kept := unpublished.kept.trans drifts.kept
  published := ⟨drifts.published.1.trans unpublished.published.1, drifts.published.2.trans unpublished.published.2⟩

theorem Failed.drifts (failed : Failed world used before store) (drifts : Drifts store store') : Failed world used before store' :=
  ⟨failed.checkpointed.drifts drifts, failed.spent.drifts drifts, failed.unpublished.drifts drifts⟩

theorem Going.drifts (going : Going world used before target rowGeneration progress store) (drifts : Drifts store store') :
    Going world used before target rowGeneration progress store' :=
  ⟨going.underway.drifts drifts, going.spent.drifts drifts, going.unpublished.drifts drifts, going.drawn⟩

theorem Going.failed (going : Going world used before target rowGeneration progress store) : Failed world used before store :=
  ⟨going.underway.checkpointed, going.spent, going.unpublished⟩

theorem triple_idle {f : α → Import world β} {Q : β → Process world → Prop} (idle : Idle m)
    (failed : Failed world used before process.store)
    (next : ∀ a process', m.run process = (.ok a, process') → Drifts process.store process'.store →
      Triple (· = process') (f a) Q fun process => Failed world used before process.store) :
    Triple (· = process) (m >>= f) Q fun process => Failed world used before process.store := by
  rintro start rfl
  rw [bind_run]
  rcases ran : m.run start with ⟨outcome, process'⟩
  have drifts := idle_ran idle ran
  cases outcome with
  | ok a => exact next a process' ran drifts process' rfl
  | error e => exact failed.drifts drifts

theorem storeRow_spent (drawn : rowGeneration ∈ used)
    (spent : ∀ row ∈ stored.1.rows, row.proto = .univ3 → ∀ label ∈ row.snapshotGeneration, label ∈ used)
    (ran : storeRow rowGeneration stored row = .ok stored') :
    ∀ row ∈ stored'.1.rows, row.proto = .univ3 → ∀ label ∈ row.snapshotGeneration, label ∈ used := by
  obtain ⟨written, put, _, _, tag, _⟩ := storeRow_ok ran
  intro other member own label labelled
  rw [put] at member
  rcases Table.mem_put.mp member with rfl | ⟨inside, _⟩
  · rw [tag] at labelled
    cases labelled
    exact drawn
  · exact spent other inside own label labelled

theorem storePage_going {count added : Nat} {next : Nat}
    {a : Attempt world} (going : Going world used before target rowGeneration progress store)
    (found : Candidates world a target progress.cursorBlock next candidates)
    (pools : parsed.map (·.toGraphPool) = candidates.mergeSort byBlock) (confirmed : ∀ row ∈ parsed, Confirmed world row)
    (remembers : Remembers world known) (ran : storePage rowGeneration count progress parsed store = .ok (store', added)) :
    Going world used before target rowGeneration (progress.next count added parsed known) store' ∧
      nextCursor progress.cursorBlock parsed = next := by
  have perm := List.mergeSort_perm candidates byBlock
  have most : ∀ pool ∈ candidates, pool.createdBlock ≤ next := fun pool member => by
    have inside := (List.mem_filter.mp (found.between.subset member)).2
    exact (of_decide_eq_true inside).2
  have cursor := nextCursor_eq pools most found.reached found.empty
  have grown : (upTo world target next).Perm (upTo world target progress.cursorBlock ++ candidates) :=
    BlockPages.extend found.ordered found.between
  have parsedPools : (parsed.map (·.toGraphPool)).Perm candidates := pools ▸ perm
  unfold storePage at ran
  obtain ⟨⟨rows, more⟩, stored, ran⟩ := bind_ok ran
  cases ran
  obtain ⟨poolCount, keys⟩ := going.underway.keys
  obtain ⟨held, kept⟩ := storeRows_ok going.underway.holds confirmed stored
  have spent : ∀ row ∈ rows.rows, row.proto = .univ3 → ∀ label ∈ row.snapshotGeneration, label ∈ used :=
    foldlM_keeps (fun _ _ _ before one => storeRow_spent going.drawn before one) going.spent.rows stored
  have ids : ((upTo world target progress.cursorBlock).map (·.id) ++ parsed.map (·.id)).Perm ((upTo world target next).map (·.id)) := by
    have mapped : parsed.map (·.id) = (parsed.map (·.toGraphPool)).map (·.id) := by
      rw [List.map_map]
      rfl
    rw [mapped, ← List.map_append]
    exact ((grown.trans (parsedPools.symm.append_left _)).map _).symm
  refine ⟨⟨⟨⟨some count, ?_⟩, ?_, ?_, remembers, ?_, ?_⟩, ⟨spent, ?_⟩,
    ⟨going.unpublished.kept.trans kept, going.unpublished.published⟩, going.drawn⟩, cursor⟩
  · rw [keys]
    rfl
  · change UNI_V3_START_BLOCK - 1 ≤ nextCursor progress.cursorBlock parsed
    rw [cursor]
    exact going.underway.lower.trans found.ordered
  · change nextCursor progress.cursorBlock parsed ≤ target.block
    rw [cursor]
    exact found.within.trans (max_le going.underway.upper le_rfl)
  · change progress.downloaded + parsed.length = (upTo world target (nextCursor progress.cursorBlock parsed)).length
    rw [cursor, grown.length_eq, List.length_append, going.underway.downloaded, ← parsedPools.length_eq, List.length_map]
  · change Holds world rows rowGeneration ((upTo world target (nextCursor progress.cursorBlock parsed)).map (·.id))
    rw [cursor]
    exact ⟨fun address => (held.exact address).trans ids.mem_iff, held.verified⟩
  · intro stored member label tag
    rw [keys] at member
    cases member
    cases tag
    exact going.drawn

theorem importPage_going {a : Attempt world} {resumed : Bool} (going : Going world used before target rowGeneration progress process.store) :
    Triple (· = process) (importPage a target rowGeneration resumed progress)
      (fun answer process => Going world used before target rowGeneration answer.1 process.store ∧
        (answer.2 = true → ∀ pool ∈ snapshotPools world target, pool.createdBlock ≤ answer.1.cursorBlock))
      fun process => Failed world used before process.store := by
  unfold importPage
  refine triple_idle idle_fetchPage going.failed fun page first fetched drift1 => ?_
  obtain ⟨pools, count⟩ := page
  obtain ⟨isPage, sized, within⟩ := fetchPage_returns fetched
  have going := going.drifts drift1
  refine triple_idle idle_completeRows going.failed fun candidates second completed drift2 => ?_
  obtain ⟨next, found⟩ := completeRows_returns isPage sized within completed
  have going := going.drifts drift2
  refine triple_idle idle_verifyRows going.failed fun verified third checked drift3 => ?_
  obtain ⟨parsed, known⟩ := verified
  obtain ⟨ordered, _, confirmed, remembers⟩ := verifyRows_returns going.underway.remembers checked
  have going := going.drifts drift3
  refine triple_read_at (triple_reply_at (fun answer told => ?_) fun _ _ => going.failed)
  obtain ⟨stored, added⟩ := answer
  obtain ⟨after, cursor⟩ := storePage_going going found ordered confirmed remembers told
  refine triple_write_at (triple_pure ?_)
  rintro _ rfl
  refine ⟨after, fun last pool member => ?_⟩
  have short : candidates.length < a.pageSize := by
    have same : parsed.length = candidates.length := by
      rw [← List.length_map (f := fun row : Parsed => row.toGraphPool), ordered, List.length_mergeSort]
    rw [← same]
    exact of_decide_eq_true last
  change pool.createdBlock ≤ nextCursor progress.cursorBlock parsed
  rw [cursor]
  exact found.last short pool member

theorem importPages_going {a : Attempt world} {resumed : Bool} {rounds : Nat}
    (going : Going world used before target rowGeneration progress process.store) :
    Triple (· = process) (importPages a target rowGeneration resumed rounds progress)
      (fun progress process => Going world used before target rowGeneration progress process.store ∧
        ∀ pool ∈ snapshotPools world target, pool.createdBlock ≤ progress.cursorBlock)
      fun process => Failed world used before process.store := by
  induction rounds generalizing progress process with
  | zero =>
    rintro _ rfl
    exact going.failed
  | succ rounds ih =>
    unfold importPages
    refine triple_bind (importPage_going going) fun answer => ?_
    obtain ⟨next, last⟩ := answer
    refine triple_each fun middle after => ?_
    dsimp only
    split
    · rename_i ended
      refine triple_pure ?_
      rintro _ rfl
      exact ⟨after.1, after.2 ended⟩
    · exact ih after.1

/-- The rows of the venue are exactly the pools of the pinned block, each confirmed by the factory, and the
tail goes on after that block. -/
structure Published (world : World) (result : SnapshotResult) (store : Store) : Prop where
  exact : ((univ3Pools store.pools).map V3Row.address).Perm ((snapshotPools world result.target).map GraphPool.id)
  verified : ∀ row ∈ univ3Pools store.pools, Verified world row
  counted : result.downloaded = (snapshotPools world result.target).length
  cursor : store.cursor = some result.target.block

theorem mem_published {pools : Table V3Row.address} {row : V3Row} :
    row ∈ univ3Pools (deletePoolsOutsideSnapshotGeneration rowGeneration pools) ↔ Labelled pools rowGeneration row := by
  unfold univ3Pools deletePoolsOutsideSnapshotGeneration Labelled
  rw [List.mem_filter, Table.mem_keep]
  by_cases own : row.proto = .univ3
  · simp [own]
  · simp [own]

theorem univ3Pools_nodup (pools : Table V3Row.address) : ((univ3Pools pools).map V3Row.address).Nodup :=
  List.pairwise_map.mpr ((Table.rows_apart pools).filter _)

theorem publish_published (going : Going world used before target rowGeneration progress store)
    (all : ∀ pool ∈ snapshotPools world target, pool.createdBlock ≤ progress.cursorBlock)
    (ran : publish target rowGeneration progress.downloaded store = .ok store') :
    Published world ⟨progress.added, target, progress.downloaded⟩ store' ∧ Checkpointed world store' ∧ Spent used store' := by
  have whole : upTo world target progress.cursorBlock = snapshotPools world target :=
    List.filter_eq_self.mpr fun pool member => by simpa using all pool member
  have holds := going.underway.holds
  rw [whole] at holds
  unfold publish at ran
  obtain ⟨_, _, ran⟩ := bind_ok ran
  cases ran
  refine ⟨⟨?_, fun row member => holds.verified row (mem_published.mp member), ?_, rfl⟩, ?_, ⟨?_, ?_⟩⟩
  · refine (List.perm_ext_iff_of_nodup (univ3Pools_nodup _) (List.pairwise_map.mpr (Table.rows_apart _))).mpr fun address => ?_
    rw [List.mem_map]
    simp only [mem_published]
    exact holds.exact address
  · rw [← whole]
    exact going.underway.downloaded
  · intro keys other label stored generation row
    obtain ⟨poolCount, own⟩ := going.underway.keys
    rw [own] at stored
    cases stored
    cases generation
  · intro row member own label tag
    exact going.spent.rows row (Table.mem_keep.mp member).1 own label tag
  · intro keys stored label tag
    obtain ⟨poolCount, own⟩ := going.underway.keys
    rw [own] at stored
    cases stored
    cases tag

theorem runImport_spec {a : Attempt world} {resumed : Bool}
    (going : Going world used before target rowGeneration progress process.store) :
    Triple (· = process) (runImport a target rowGeneration resumed progress)
      (fun result process => Published world result process.store ∧ Checkpointed world process.store ∧ Spent used process.store)
      fun process => Failed world used before process.store := by
  unfold runImport
  refine triple_read_at (triple_bind (importPages_going going) fun progress => triple_each fun ended after => ?_)
  unfold finishImport
  refine triple_reply_at (fun _ _ => ?_) fun _ _ => after.1.failed
  refine triple_idle idle_assertCanonicalSnapshot after.1.failed fun _ checked _ drifts => ?_
  have going := after.1.drifts drifts
  refine triple_read_at (triple_reply_at (fun store told => triple_write_at (triple_pure ?_)) fun _ _ => going.failed)
  rintro _ rfl
  exact publish_published going after.2 told

theorem resumePin_returns {a : Attempt world} (ran : (resumePin a indexed).run process = (.ok (some target), process')) :
    UNI_V3_START_BLOCK ≤ target.block := by
  unfold resumePin at ran
  obtain ⟨_, _, _, ran⟩ := bind_returns ran
  split at ran
  · cases (pure_returns ran).1
  · rename_i found stored
    obtain ⟨still, _, _, ran⟩ := bind_returns ran
    split at ran
    · cases (pure_returns ran).1
      have resumes := (Option.filter_eq_some_iff.mp stored).2
      simp only [canResume, Bool.and_eq_true, decide_eq_true_eq] at resumes
      exact resumes.1.1.1.1
    · cases (pure_returns ran).1

theorem pinBlock_returns {a : Attempt world} {resumed : Option Generation}
    (ran : (pinBlock a indexed resumed).run process = (.ok target, process')) :
    target.block = (resumed.map (·.block)).getD (min indexed.block a.targetBlock) := by
  unfold pinBlock at ran
  obtain ⟨_, _, _, ran⟩ := bind_returns ran
  dsimp only at ran
  split at ran
  · obtain ⟨_, _, _, ran⟩ := bind_returns ran
    obtain ⟨_, _, _, ran⟩ := bind_returns ran
    cases (pure_returns ran).1
    rfl
  · split at ran
    all_goals
      iterate 2 obtain ⟨_, _, _, ran⟩ := bind_returns ran
      cases (pure_returns ran).1
      rfl

theorem resumable_some {keys : Option ImportKeys} {resumed : Option Generation} {found : ImportKeys}
    (resumes : resumable keys resumed target = some (found, rowGeneration)) :
    keys = some found ∧ found.generation = some target ∧ found.rowGeneration = some rowGeneration := by
  unfold resumable at resumes
  split at resumes
  · split at resumes
    · rename_i same
      obtain ⟨label, row, eq⟩ := Option.map_eq_some_iff.mp resumes
      cases eq
      exact ⟨rfl, same, row⟩
    · cases resumes
  · cases resumes

theorem resumedProgress_cursorBlock {poolCount : Option Nat} (lower : UNI_V3_START_BLOCK - 1 ≤ progress.cursorBlock)
    (upper : progress.cursorBlock ≤ target.block) :
    (resumedProgress target ⟨target, some target, some rowGeneration, some progress.cursorBlock, some progress.downloaded,
      poolCount⟩).cursorBlock = progress.cursorBlock := by
  simp [resumedProgress, Option.filter, lower, upper]

theorem Underway.resumed {found : ImportKeys} (underway : Underway world target rowGeneration progress store)
    (stored : store.importKeys = some found) :
    Underway world target rowGeneration (resumedProgress target found) store := by
  obtain ⟨poolCount, own⟩ := underway.keys
  rw [own] at stored
  cases stored
  have cursor := @resumedProgress_cursorBlock target rowGeneration progress poolCount underway.lower underway.upper
  constructor
  case keys => exact ⟨poolCount, by rw [cursor]; exact own⟩
  case lower => rw [cursor]; exact underway.lower
  case upper => rw [cursor]; exact underway.upper
  case remembers =>
    intro fee spacing told
    cases told
  case downloaded => rw [cursor]; exact underway.downloaded
  case holds => rw [cursor]; exact underway.holds

theorem beginImport_underway (spent : Spent used store) (fresh : rowGeneration ∉ used) (started : UNI_V3_START_BLOCK ≤ target.block) :
    Underway world target rowGeneration freshProgress (beginImport target rowGeneration store) := by
  have none : upTo world target (UNI_V3_START_BLOCK - 1) = [] := by
    refine List.filter_eq_nil_iff.mpr fun pool member => ?_
    have old := world.started _ _ pool member
    have positive : 0 < UNI_V3_START_BLOCK := by decide
    simp only [decide_eq_true_eq, not_le]
    omega
  have unknown : Remembers world [] := by
    intro fee spacing told
    cases told
  refine ⟨⟨_, rfl⟩, le_refl _, (Nat.sub_le _ _).trans started, unknown, ?_, ?_⟩
  · change 0 = (upTo world target (UNI_V3_START_BLOCK - 1)).length
    rw [none]
    rfl
  · change Holds world store.pools rowGeneration ((upTo world target (UNI_V3_START_BLOCK - 1)).map (·.id))
    rw [none]
    have missing : ∀ row, ¬ Labelled store.pools rowGeneration row := fun row labelled =>
      fresh (spent.rows row labelled.1 labelled.2.1 rowGeneration labelled.2.2)
    refine ⟨fun address => ⟨fun ⟨row, labelled, _⟩ => absurd labelled (missing row), fun inside => ?_⟩,
      fun row labelled => absurd labelled (missing row)⟩
    cases inside

theorem Spent.cons (spent : Spent used store) (label : Uuid) : Spent (label :: used) store where
  rows row member own other tag := List.mem_cons_of_mem _ (spent.rows row member own other tag)
  keys keys stored other tag := List.mem_cons_of_mem _ (spent.keys keys stored other tag)

theorem importBscV3Snapshot_spec {a : Attempt world} (checkpointed : Checkpointed world process.store)
    (spent : Spent used process.store) (fresh : a.randomUUID ∉ used) :
    Triple (· = process) (importBscV3Snapshot a)
      (fun result process => Published world result process.store ∧ Checkpointed world process.store ∧
        Spent (a.randomUUID :: used) process.store)
      fun after => Failed world (a.randomUUID :: used) process.store after.store := by
  have failed : Failed world (a.randomUUID :: used) process.store process.store :=
    ⟨checkpointed, spent.cons _, Kept.refl _, rfl, rfl⟩
  have begun : ∀ {target : Generation} {store : Store}, Checkpointed world store → Spent used store → Unpublished process.store store →
      UNI_V3_START_BLOCK ≤ target.block →
      Going world (a.randomUUID :: used) process.store target a.randomUUID freshProgress (beginImport target a.randomUUID store) := by
    intro target store _ spent unpublished started
    refine ⟨beginImport_underway spent fresh started, ⟨(spent.cons _).rows, fun keys stored label tag => ?_⟩, ⟨unpublished.kept,
      unpublished.published⟩, List.mem_cons_self⟩
    cases stored
    cases tag
    exact List.mem_cons_self
  unfold importBscV3Snapshot
  refine triple_reply_at (fun _ reached => ?_) fun _ _ => failed
  have reached := require_ok.mp reached
  refine triple_idle idle_await failed fun indexed first _ drift1 => ?_
  have failed := failed.drifts drift1
  refine triple_reply_at (fun _ _ => triple_reply_at (fun _ _ => triple_reply_at (fun _ grown => ?_) fun _ _ => failed)
    fun _ _ => failed) fun _ _ => failed
  have grown := require_ok.mp grown
  refine triple_idle idle_resumePin failed fun resumed second pinned drift2 => ?_
  have failed := failed.drifts drift2
  refine triple_idle idle_pinBlock failed fun target third bound drift3 => ?_
  have failed := failed.drifts drift3
  have started : UNI_V3_START_BLOCK ≤ target.block := by
    rw [pinBlock_returns bound]
    cases resumed with
    | none => exact le_min grown reached
    | some found => exact resumePin_returns pinned
  have spent := spent.drifts ((drift1.trans drift2).trans drift3)
  refine triple_read_at ?_
  split
  · rename_i keys label resumes
    obtain ⟨stored, generation, row⟩ := resumable_some resumes
    obtain ⟨progress, underway⟩ := failed.checkpointed keys target label stored generation row
    exact runImport_spec ⟨underway.resumed stored, failed.spent, failed.unpublished,
      List.mem_cons_of_mem _ (spent.keys keys stored label row)⟩
  · exact triple_write_at (runImport_spec (begun failed.checkpointed spent failed.unpublished started))

/-- The attempts of a catalog up to one of them. Its rows carry no label at first, and each attempt draws its own. -/
structure History (world : World) where
  start : Store
  unlabelled : ∀ row ∈ start.pools.rows, row.proto = .univ3 → row.snapshotGeneration = none
  idle : start.importKeys = none
  earlier : List (Attempt world)
  last : Attempt world
  distinct : (earlier.map Attempt.randomUUID).Nodup
  unused : last.randomUUID ∉ earlier.map Attempt.randomUUID

def after (store : Store) (attempts : List (Attempt world)) : Store :=
  attempts.foldl (fun store a => (attempt store a).2) store

theorem attempt_keeps {a : Attempt world} (checkpointed : Checkpointed world store) (spent : Spent used store)
    (fresh : a.randomUUID ∉ used) :
    Checkpointed world (attempt store a).2 ∧ Spent (a.randomUUID :: used) (attempt store a).2 ∧
      match attempt store a with
      | (.ok result, store') => Published world result store'
      | (.error _, store') => Unpublished store store' := by
  have spec := @importBscV3Snapshot_spec world used ⟨store, a.replies⟩ a checkpointed spent fresh ⟨store, a.replies⟩ rfl
  unfold attempt
  rcases ran : (importBscV3Snapshot a).run ⟨store, a.replies⟩ with ⟨outcome, process⟩
  rw [ran] at spec
  cases outcome with
  | ok result => exact ⟨spec.2.1, spec.2.2, spec.1⟩
  | error e => exact ⟨spec.checkpointed, spec.spent, spec.unpublished⟩

theorem after_keeps {attempts : List (Attempt world)} (checkpointed : Checkpointed world store) (spent : Spent used store)
    (distinct : (attempts.map Attempt.randomUUID).Nodup) (fresh : ∀ a ∈ attempts, a.randomUUID ∉ used) :
    Checkpointed world (after store attempts) ∧ Spent ((attempts.map Attempt.randomUUID).reverse ++ used) (after store attempts) := by
  induction attempts generalizing store used with
  | nil => exact ⟨checkpointed, spent⟩
  | cons a rest ih =>
    obtain ⟨own, others⟩ := List.nodup_cons.mp distinct
    obtain ⟨checkpointed, spent, _⟩ := attempt_keeps checkpointed spent (fresh a List.mem_cons_self)
    have new : ∀ b ∈ rest, b.randomUUID ∉ a.randomUUID :: used := by
      intro b member inside
      rcases List.mem_cons.mp inside with same | old
      · exact own (same ▸ List.mem_map_of_mem member)
      · exact fresh b (List.mem_cons_of_mem _ member) old
    have later := ih checkpointed spent others new
    rw [List.map_cons, List.reverse_cons, List.append_assoc]
    exact later

def History.found (history : History world) : Store := after history.start history.earlier

/-- Whatever attempts went before: one that returns has published exactly the pools of its pinned block and
set the cursor to it; one that fails has published nothing and removed no row; and an unfinished import
holds exactly the pools up to its checkpoint. -/
theorem importBscV3Snapshot_exact (history : History world) :
    Checkpointed world (attempt history.found history.last).2 ∧
      match attempt history.found history.last with
      | (.ok result, store) => Published world result store
      | (.error _, store) => Unpublished history.found store := by
  have checkpointed : Checkpointed world history.start := by
    intro keys target label stored
    rw [history.idle] at stored
    cases stored
  have spent : Spent [] history.start := by
    refine ⟨fun row member own label tag => ?_, fun keys stored => ?_⟩
    · rw [history.unlabelled row member own] at tag
      cases tag
    · rw [history.idle] at stored
      cases stored
  have fresh : ∀ a ∈ history.earlier, a.randomUUID ∉ ([] : List Uuid) := by
    intro a _ inside
    cases inside
  obtain ⟨checkpointed, spent⟩ := after_keeps checkpointed spent history.distinct fresh
  rw [List.append_nil] at spent
  have unused : history.last.randomUUID ∉ (history.earlier.map Attempt.randomUUID).reverse :=
    fun inside => history.unused (List.mem_reverse.mp inside)
  obtain ⟨kept, _, outcome⟩ := attempt_keeps checkpointed spent unused
  exact ⟨kept, outcome⟩

end LpTerminal.Catalog.V3Snapshot
