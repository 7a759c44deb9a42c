import LpTerminal.Catalog.Projections

/-!
The offline rebuild of the projections, beside what the triggers maintain.
-/

namespace LpTerminal.Catalog

open RefCounts

def markVersions (version : String) (db : Database) : Database :=
  { db with keys := { db.keys with
      solverAdjacencyProjectionVersion := some version
      solverV4MembershipSchemaVersion := some version } }

/-- The memberships the legacy seed selects from the labels in `v4_pools`. -/
def seedRows (db : Database) : List Membership :=
  db.v4Pools.rows.filterMap fun pool => pool.snapshotGeneration.map fun generation => membershipOf generation pool

/-- `INSERT OR IGNORE … SELECT`, with the triggers of every row it stores. -/
def seedMemberships (db : Database) : Except String Database :=
  (seedRows db).foldlM (fun db row => insertMembership row db) db

/-- The three projections, each deleted and selected again by `GROUP BY`. -/
def projectAgain (db : Database) : Database :=
  { db with
    solverV23Adjacency := group (publicMembers db.pools)
    solverV4AdjacencySnapshot := group (snapshotMembers db.v4PoolSnapshotMembership)
    solverV4AdjacencyEvent := group (eventMembers db.v4Pools) }

def membershipMismatch (db : Database) : Bool :=
  db.v4PoolSnapshotMembership.rows.any fun row => !membershipValid db row

def publishedComplete (db : Database) : Bool :=
  match db.keys.v4SnapshotGeneration, db.keys.v4SnapshotPoolCount with
  | some generation, some expected => 0 < expected && expected ≤ maxSafeInteger && generationCount generation db = expected
  | _, _ => false

/-- `COUNT(*) FROM pools` counts every protocol. -/
def totalsAgree (db : Database) : Bool :=
  db.pools.rows.length = db.solverV23Adjacency.total (fun _ => true) Counted.refCount &&
    db.v4PoolSnapshotMembership.rows.length = db.solverV4AdjacencySnapshot.total (fun _ => true) Counted.refCount &&
    db.v4Pools.rows.countP V4Pool.eventProven = db.solverV4AdjacencyEvent.total (fun _ => true) Counted.refCount

def rebuildChecks (db : Database) : Except String Unit := do
  Fallible.demand (membershipMismatch db = false) "solver V4 snapshot membership conflicts with the identity catalog"
  Fallible.demand (db.keys.v4SnapshotComplete = true → publishedComplete db = true)
    "published V4 snapshot membership is incomplete"
  Fallible.demand (totalsAgree db = true) "solver adjacency projection completeness validation failed"

def rebuildTransaction (db : Database) : Except String Database := do
  let seeded ← seedMemberships db
  rebuildChecks (projectAgain seeded)
  return markVersions "1" (projectAgain seeded)

def rebuildSolverAdjacencyProjection (db : Database) : Except String Unit × Database :=
  match rebuildTransaction (markVersions "pending" db) with
  | .ok db' => (.ok (), db')
  | .error e => (.error e, markVersions "pending" db)

def solverAdjacencyProjectionReady (db : Database) : Bool :=
  db.keys.solverAdjacencyProjectionVersion = some "1" && db.keys.solverV4MembershipSchemaVersion = some "1"

def SameEdges {κ μ ν : Type} [LinearOrder κ] (first : RefCounts κ μ) (second : RefCounts κ ν) : Prop :=
  ∀ edge, (first.get? edge).map Counted.refCount = (second.get? edge).map Counted.refCount

structure SameProjections (db db' : Database) : Prop where
  v23 : SameEdges db.solverV23Adjacency db'.solverV23Adjacency
  snapshot : SameEdges db.solverV4AdjacencySnapshot db'.solverV4AdjacencySnapshot
  event : SameEdges db.solverV4AdjacencyEvent db'.solverV4AdjacencyEvent

def Rebuilds (db : Database) : Prop :=
  ∃ db', rebuildSolverAdjacencyProjection db = (.ok (), db') ∧ SameProjections db db' ∧
    solverAdjacencyProjectionReady db' = true ∧ rebuildSolverAdjacencyProjection db' = (.ok (), db')

/-- What a throw leaves: every projection row as it was, and readiness pending. -/
structure FailsClosed (db db' : Database) : Prop where
  v23 : db'.solverV23Adjacency = db.solverV23Adjacency
  snapshot : db'.solverV4AdjacencySnapshot = db.solverV4AdjacencySnapshot
  event : db'.solverV4AdjacencyEvent = db.solverV4AdjacencyEvent
  pending : solverAdjacencyProjectionReady db' = false

structure Rebuildable (db : Database) : Prop where
  noUp33 : ∀ pool ∈ db.pools.rows, pool.proto ≠ .up33cl
  labelled : ∀ pool ∈ db.v4Pools.rows, ∀ generation, pool.snapshotGeneration = some generation →
    pool.currency0 ≠ pool.currency1 → isMember db generation pool.poolId = true
  published : db.keys.v4SnapshotComplete = true → publishedComplete db = true

section Seed

variable {db db' : Database} {row : Membership}

def Ignored (db : Database) (row : Membership) : Prop :=
  (db.v4PoolSnapshotMembership.get? row.key).isSome ∨ ¬ row.token0 < row.token1

theorem insertMembership_ignored (valid : membershipValid db row = true) (ignored : Ignored db row) : insertMembership row db = .ok db := by
  unfold insertMembership
  rw [if_pos valid]
  refine if_neg fun stores => ?_
  rcases ignored with there | refused
  · rw [Option.isNone_iff_eq_none.mp stores.1] at there
    cases there
  · exact refused stores.2

theorem insertMembership_ran (ran : insertMembership row db = .ok db') :
    (db' = db ∧ Ignored db row) ∨
      db'.v4PoolSnapshotMembership.rows.length = db.v4PoolSnapshotMembership.rows.length + 1 := by
  unfold insertMembership at ran
  split at ran
  · split at ran
    · rename_i stores
      cases ran
      refine Or.inr ?_
      simpa using (Table.put_perm_new (Option.isNone_iff_eq_none.mp stores.1)).length_eq
    · rename_i refused
      cases ran
      refine Or.inl ⟨rfl, ?_⟩
      rcases Classical.em (row.token0 < row.token1) with ordered | unordered
      · refine Or.inl (Option.isSome_iff_ne_none.mpr fun missing => refused ⟨?_, ordered⟩)
        rw [missing]
        rfl
      · exact Or.inr unordered
  · cases ran

variable {rows : List Membership}

theorem seed_grows (ran : rows.foldlM (fun db row => insertMembership row db) db = .ok db') :
    db.v4PoolSnapshotMembership.rows.length ≤ db'.v4PoolSnapshotMembership.rows.length := by
  have each : ∀ s row s', db.v4PoolSnapshotMembership.rows.length ≤ s.v4PoolSnapshotMembership.rows.length →
      insertMembership row s = .ok s' → db.v4PoolSnapshotMembership.rows.length ≤ s'.v4PoolSnapshotMembership.rows.length := by
    intro s row s' before one
    rcases insertMembership_ran one with ⟨rfl, _⟩ | grown
    · exact before
    · omega
  exact Fallible.foldlM_keeps each (le_refl _) ran

theorem seed_idle (ran : rows.foldlM (fun db row => insertMembership row db) db = .ok db')
    (same : db'.v4PoolSnapshotMembership.rows.length = db.v4PoolSnapshotMembership.rows.length) :
    db' = db ∧ ∀ row ∈ rows, Ignored db row := by
  induction rows generalizing db with
  | nil =>
    cases ran
    exact ⟨rfl, fun _ inside => by cases inside⟩
  | cons row rest ih =>
    rw [List.foldlM_cons] at ran
    obtain ⟨middle, one, later⟩ := Fallible.bind_ok ran
    have grows := seed_grows later
    rcases insertMembership_ran one with ⟨rfl, ignored⟩ | grown
    · obtain ⟨final, others⟩ := ih later same
      exact ⟨final, List.forall_mem_cons.mpr ⟨ignored, others⟩⟩
    · omega

theorem seed_ignored (valid : ∀ row ∈ rows, membershipValid db row = true)
    (ignored : ∀ row ∈ rows, Ignored db row) : rows.foldlM (fun db row => insertMembership row db) db = .ok db := by
  induction rows with
  | nil => rfl
  | cons row rest ih =>
    obtain ⟨own, later⟩ := List.forall_mem_cons.mp valid
    obtain ⟨ownIgnored, laterIgnored⟩ := List.forall_mem_cons.mp ignored
    rw [List.foldlM_cons, insertMembership_ignored own ownIgnored]
    exact ih later laterIgnored

theorem mem_seedRows : row ∈ seedRows db ↔
    ∃ pool ∈ db.v4Pools.rows, ∃ generation, pool.snapshotGeneration = some generation ∧ membershipOf generation pool = row := by
  simp [seedRows, List.mem_filterMap]

theorem canonical_ordered {token0 token1 : Address} :
    (ofLex (canonical token0 token1)).1 < (ofLex (canonical token0 token1)).2 ↔ token0 ≠ token1 := by
  unfold canonical
  split <;> simp <;> grind

theorem ignored_iff_labelled :
    (∀ row ∈ seedRows db, Ignored db row) ↔
      ∀ pool ∈ db.v4Pools.rows, ∀ generation, pool.snapshotGeneration = some generation →
        pool.currency0 ≠ pool.currency1 → isMember db generation pool.poolId = true := by
  constructor
  · intro ignored pool member generation labelled distinct
    rcases ignored _ (mem_seedRows.mpr ⟨pool, member, generation, labelled, rfl⟩) with there | refused
    · exact there
    · exact absurd (canonical_ordered.mpr distinct) refused
  · intro labelled row seeded
    obtain ⟨pool, member, generation, label, rfl⟩ := mem_seedRows.mp seeded
    by_cases distinct : pool.currency0 = pool.currency1
    · exact Or.inr fun ordered => canonical_ordered.mp ordered distinct
    · exact Or.inl (labelled pool member generation label distinct)

theorem seedRows_valid (db : Database) : ∀ row ∈ seedRows db, membershipValid db row = true := by
  intro row seeded
  obtain ⟨pool, member, generation, _, rfl⟩ := mem_seedRows.mp seeded
  exact membershipOf_valid member generation

end Seed

variable {db db' : Database}

theorem projectAgain_projected (db : Database) :
    Counts (publicMembers db.pools) (projectAgain db).solverV23Adjacency ∧
      Counts (snapshotMembers db.v4PoolSnapshotMembership) (projectAgain db).solverV4AdjacencySnapshot ∧
      Counts (eventMembers db.v4Pools) (projectAgain db).solverV4AdjacencyEvent :=
  ⟨group_counts _, group_counts _, group_counts _⟩

theorem totalsAgree_projectAgain : totalsAgree (projectAgain db) = true ↔ ∀ pool ∈ db.pools.rows, pool.proto ≠ .up33cl := by
  obtain ⟨v23, snapshot, event⟩ := projectAgain_projected db
  have isPublic : ∀ pool : Pool, pool.proto.isPublic = true ↔ pool.proto ≠ .up33cl := by
    intro pool
    cases pool.proto <;> simp [PoolProto.isPublic]
  have snapshotSame : (projectAgain db).v4PoolSnapshotMembership.rows.length =
      (projectAgain db).solverV4AdjacencySnapshot.total (fun _ => true) Counted.refCount := by
    rw [snapshot.total, snapshotMembers, List.length_map]
    rfl
  have eventSame : (projectAgain db).v4Pools.rows.countP V4Pool.eventProven =
      (projectAgain db).solverV4AdjacencyEvent.total (fun _ => true) Counted.refCount := by
    rw [event.total, eventMembers, List.length_map, List.countP_eq_length_filter]
    rfl
  unfold totalsAgree
  rw [decide_eq_true snapshotSame, decide_eq_true eventSame, Bool.and_true, Bool.and_true, decide_eq_true_eq, v23.total,
    publicMembers, List.length_map]
  have rows : (projectAgain db).pools.rows = db.pools.rows := rfl
  rw [rows, eq_comm, List.length_filter_eq_length_iff]
  exact forall₂_congr fun pool _ => isPublic pool

theorem rebuildChecks_ok : rebuildChecks db = .ok () ↔
    membershipMismatch db = false ∧ (db.keys.v4SnapshotComplete = true → publishedComplete db = true) ∧ totalsAgree db = true := by
  unfold rebuildChecks
  constructor
  · intro passed
    obtain ⟨_, matched, passed⟩ := Fallible.bind_ok passed
    obtain ⟨_, published, totals⟩ := Fallible.bind_ok passed
    exact ⟨Fallible.demand_ok.mp matched, Fallible.demand_ok.mp published, Fallible.demand_ok.mp totals⟩
  · rintro ⟨matched, published, totals⟩
    rw [Fallible.demand_bind matched, Fallible.demand_bind published]
    exact Fallible.demand_ok.mpr totals

theorem matched_mismatch (matched : Matched db) : membershipMismatch db = false := by
  unfold membershipMismatch
  rw [List.any_eq_false]
  intro row member
  simp [matched row member]

theorem rebuild_of_rebuildable (matched : Matched db) (rebuildable : Rebuildable db) :
    rebuildSolverAdjacencyProjection db = (.ok (), markVersions "1" (projectAgain db)) := by
  have seeded : seedMemberships (markVersions "pending" db) = .ok (markVersions "pending" db) :=
    seed_ignored (seedRows_valid _) (ignored_iff_labelled.mpr rebuildable.labelled)
  have checked : rebuildChecks (projectAgain (markVersions "pending" db)) = .ok () :=
    rebuildChecks_ok.mpr ⟨matched_mismatch matched, rebuildable.published, totalsAgree_projectAgain.mpr rebuildable.noUp33⟩
  have ran : rebuildTransaction (markVersions "pending" db) = .ok (markVersions "1" (projectAgain (markVersions "pending" db))) := by
    unfold rebuildTransaction
    rw [seeded, Fallible.ok_bind, checked]
    rfl
  unfold rebuildSolverAdjacencyProjection
  rw [ran]
  rfl

theorem rebuildTransaction_ran (ran : rebuildTransaction db = .ok db') :
    ∃ seeded, seedMemberships db = .ok seeded ∧ rebuildChecks (projectAgain seeded) = .ok () ∧
      db' = markVersions "1" (projectAgain seeded) := by
  obtain ⟨seeded, stored, ran⟩ := Fallible.bind_ok ran
  obtain ⟨_, checked, ran⟩ := Fallible.bind_ok ran
  cases ran
  exact ⟨seeded, stored, checked, rfl⟩

theorem rebuildable_of_rebuilds (projected : Projected db) (rebuilds : Rebuilds db) : Rebuildable db := by
  obtain ⟨db', ran, same, _, _⟩ := rebuilds
  unfold rebuildSolverAdjacencyProjection at ran
  split at ran
  · rename_i final inner
    cases ran
    obtain ⟨seeded, stored, checked, rfl⟩ := rebuildTransaction_ran inner
    obtain ⟨_, published, totals⟩ := rebuildChecks_ok.mp checked
    -- Equal counts leave no room for a membership the seed brought back.
    have length : (snapshotMembers db.v4PoolSnapshotMembership).length = (snapshotMembers seeded.v4PoolSnapshotMembership).length := by
      refine projected.snapshot.same_length (projectAgain_projected seeded).2.1 fun edge => ?_
      exact congrArg (fun found => found.getD 0) (same.snapshot edge)
    rw [snapshotMembers, snapshotMembers, List.length_map, List.length_map] at length
    obtain ⟨rfl, ignored⟩ := seed_idle stored length.symm
    exact ⟨totalsAgree_projectAgain.mp totals, ignored_iff_labelled.mp ignored, published⟩
  · cases ran

theorem rebuilds_of_rebuildable (projected : Projected db) (matched : Matched db) (rebuildable : Rebuildable db) : Rebuilds db := by
  obtain ⟨v23, snapshot, event⟩ := projectAgain_projected db
  refine ⟨_, rebuild_of_rebuildable matched rebuildable, ⟨?_, ?_, ?_⟩, rfl, ?_⟩
  · exact projected.v23.same_counts v23
  · exact projected.snapshot.same_counts snapshot
  · exact projected.event.same_counts event
  · have again : Rebuildable (markVersions "1" (projectAgain db)) :=
      ⟨rebuildable.noUp33, rebuildable.labelled, rebuildable.published⟩
    have rebuilt : Matched (markVersions "1" (projectAgain db)) := matched
    exact rebuild_of_rebuildable rebuilt again

theorem rebuild_fails_closed {e : String} (threw : rebuildSolverAdjacencyProjection db = (.error e, db')) : FailsClosed db db' := by
  unfold rebuildSolverAdjacencyProjection at threw
  split at threw
  · cases threw
  · cases threw
    exact ⟨rfl, rfl, rfl, rfl⟩

/-- In every reachable database the rebuild meets its promise exactly when no UP33 pool is in the table,
every labelled v4 pool still has its membership, and a complete snapshot has its published count;
where it throws, the projections stay and readiness is pending. -/
theorem rebuild_exact (transactions : List (List CatalogOp)) :
    (Rebuilds (Trace.run transact Database.fresh transactions) ↔ Rebuildable (Trace.run transact Database.fresh transactions)) ∧
      ∀ e db', rebuildSolverAdjacencyProjection (Trace.run transact Database.fresh transactions) = (.error e, db') →
        FailsClosed (Trace.run transact Database.fresh transactions) db' := by
  have projected := run_projected transactions
  exact ⟨⟨rebuildable_of_rebuilds projected, rebuilds_of_rebuildable projected (run_matched transactions)⟩,
    fun _ _ => rebuild_fails_closed⟩

def up33Pool : Pool :=
  { address := 7, proto := .up33cl, token0 := 1, token1 := 2, feePpm := 500, createdBlock := some 10, pairIndex := none,
    snapshotGeneration := none, catalogSeq := none }

/-- The migration of a catalog with one UP33 pool throws, and no later run of it can succeed. -/
theorem rebuild_refuses_up33 : ¬ Rebuilds (Trace.run transact Database.fresh [[.insertPool up33Pool]]) := by
  intro rebuilds
  have rebuildable := rebuildable_of_rebuilds (run_projected _) rebuilds
  exact rebuildable.noUp33 up33Pool (by decide) rfl

end LpTerminal.Catalog
