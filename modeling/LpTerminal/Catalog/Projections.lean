import LpTerminal.Catalog.Triggers

/-!
The projections the triggers maintain are what their definition says over the identity catalogs, and every membership names an
identity with the pair it copied, whatever the catalog goes through.
-/

namespace LpTerminal.Catalog

open RefCounts

def publicMembers (pools : Table Pool.address) : List (VenuePair × Nat) :=
  (pools.rows.filter fun pool => pool.proto.isPublic).map fun pool => (pool.venuePair, pool.catalogSeq.getD 0)

def snapshotMembers (membership : Table Membership.key) : List (SnapshotPair × Unit) :=
  membership.rows.map fun row => (row.pair, ())

def eventMembers (v4Pools : Table V4Pool.poolId) : List ((Address ×ₗ Address) × Nat) :=
  (v4Pools.rows.filter V4Pool.eventProven).map fun pool => (pool.pair, pool.createdBlock.getD 0)

structure Projected (db : Database) : Prop where
  v23 : Counts (publicMembers db.pools) db.solverV23Adjacency
  snapshot : Counts (snapshotMembers db.v4PoolSnapshotMembership) db.solverV4AdjacencySnapshot
  event : Counts (eventMembers db.v4Pools) db.solverV4AdjacencyEvent
  eventLeast : Attained (eventMembers db.v4Pools) db.solverV4AdjacencyEvent

theorem projected_fresh : Projected Database.fresh :=
  ⟨counts_empty, counts_empty, counts_empty, attained_empty⟩

variable {generation : Digest}

section Pools

variable {db : Database} {old new : Pool}

def memberOf (pool : Pool) : List (VenuePair × Nat) :=
  if pool.proto.isPublic then [(pool.venuePair, pool.catalogSeq.getD 0)] else []

theorem publicMembers_perm {pools : Table Pool.address} {pool : Pool} {rows : List Pool} (same : pools.rows.Perm (pool :: rows)) :
    (publicMembers pools).Perm
      (memberOf pool ++ (rows.filter fun other => other.proto.isPublic).map fun other => (other.venuePair, other.catalogSeq.getD 0)) := by
  have perm := (same.filter fun other => other.proto.isPublic).map fun other => (other.venuePair, other.catalogSeq.getD 0)
  unfold publicMembers memberOf
  rw [List.filter_cons] at perm
  split
  · rename_i isPublic
    rw [if_pos isPublic] at perm
    exact perm
  · rename_i notPublic
    rw [if_neg notPublic] at perm
    exact perm

theorem publicMembers_put_new (missing : db.pools.get? new.address = none) :
    (publicMembers (db.pools.put new)).Perm (memberOf new ++ publicMembers db.pools) :=
  publicMembers_perm (Table.put_perm_new missing)

theorem publicMembers_put :
    (publicMembers (db.pools.put new)).Perm (memberOf new ++ publicMembers (db.pools.remove new.address)) :=
  publicMembers_perm Table.put_perm_remove

theorem publicMembers_remove (member : old ∈ db.pools.rows) :
    (publicMembers db.pools).Perm (memberOf old ++ publicMembers (db.pools.remove old.address)) :=
  publicMembers_perm (Table.perm_remove member)

theorem fence_pools (seq : Nat) :
    ((db.pools.put { new with catalogSeq := none }).adjust
      (fun pool => if pool.address = new.address then { pool with catalogSeq := some seq } else pool)
      (fun pool => by split <;> rfl)) = db.pools.put { new with catalogSeq := some seq } := by
  refine Table.ext_get? fun address => ?_
  rw [Table.get?_adjust]
  by_cases here : address = new.address
  · subst here
    have first := Table.get?_put_same db.pools { new with catalogSeq := none }
    have second := Table.get?_put_same db.pools { new with catalogSeq := some seq }
    dsimp only at first second
    rw [first, second]
    simp
  · have apart : ∀ stamp, (db.pools.put { new with catalogSeq := stamp }).get? address = db.pools.get? address :=
      fun _ => Table.get?_put_other here
    rw [apart, apart]
    cases read : db.pools.get? address with
    | none => rfl
    | some pool =>
      have own : pool.address ≠ new.address := by rw [Table.get?_key read]; exact here
      rw [Option.map_some, if_neg own]

theorem projected_insertPool (projected : Projected db) (new : Pool) : Projected (insertPool new db) := by
  unfold insertPool
  split
  · rename_i isNew
    have missing : db.pools.get? new.address = none := by
      simp only [poolIsNew, Bool.and_eq_true, Option.isNone_iff_eq_none] at isNew
      exact isNew.1
    unfold poolsCatalogFenceInsert poolsSolverAdjacencyInsert
    by_cases isPublic : new.proto.isPublic
    · rw [if_pos isPublic, if_pos isPublic]
      dsimp only
      rw [fence_pools]
      have read := Table.get?_put_same db.pools { new with catalogSeq := some (db.clock.nextSeq + 1) }
      dsimp only at read
      rw [read]
      have perm := @publicMembers_put_new db { new with catalogSeq := some (db.clock.nextSeq + 1) } missing
      simp only [memberOf, isPublic, if_true] at perm
      exact { projected with v23 := (projected.v23.enter _ _).perm perm.symm }
    · rw [if_neg isPublic, if_neg isPublic]
      have perm := @publicMembers_put_new db { new with catalogSeq := none } missing
      simp only [memberOf, isPublic] at perm
      exact { projected with v23 := projected.v23.perm perm.symm }
  · exact projected

theorem projected_deletePool (projected : Projected db) (member : old ∈ db.pools.rows) : Projected (deletePool db old) := by
  have perm := publicMembers_remove member
  have counts := projected.v23.perm perm
  unfold memberOf at counts
  unfold deletePool
  by_cases isPublic : old.proto.isPublic
  · rw [if_pos isPublic] at counts ⊢
    exact { projected with v23 := counts.leave }
  · rw [if_neg isPublic] at counts ⊢
    exact { projected with v23 := counts }

theorem projected_deletePools (projected : Projected db) (selects : Pool → Bool) : Projected (deletePools selects db) :=
  @Table.foldl_take _ _ _ Pool.address _ Database.pools deletePool Projected (fun _ _ => rfl) (fun _ _ member before => projected_deletePool before member)
    _ ((Table.rows_apart db.pools).filter selects) db (fun _ chosen => List.mem_of_mem_filter chosen) projected

theorem projected_updatePoolIdentity (projected : Projected db) {address : Address} {proto : PoolProto} {token0 token1 : Address}
    {db' : Database} (ran : updatePoolIdentity address proto token0 token1 db = .ok db') : Projected db' := by
  unfold updatePoolIdentity at ran
  cases read : db.pools.get? address with
  | none =>
    rw [read] at ran
    cases ran
    exact projected
  | some old =>
    rw [read] at ran
    dsimp only at ran
    split at ran
    · cases ran
    · cases ran
      have left := projected.v23.perm (publicMembers_remove (Table.get?_mem read))
      have taken : Counts (publicMembers (db.pools.remove old.address)) (db.solverV23Adjacency.leave old.venuePair) := by
        unfold memberOf at left
        split at left
        · exact left.leave
        · rename_i notPublic
          -- No row has the protocol of an UP33 pool, so the unguarded delete finds none.
          refine left.leave_absent fun member inside same => notPublic ?_
          obtain ⟨pool, chosen, rfl⟩ := List.mem_map.mp inside
          have venue : pool.proto = old.proto := congrArg (fun key : VenuePair => (ofLex key).1) same
          rw [← venue]
          exact (List.mem_filter.mp chosen).2
      have entered := @publicMembers_put db { old with proto := proto, token0 := token0, token1 := token1 }
      unfold poolsSolverAdjacencyIdentityUpdate
      by_cases isPublic : proto.isPublic
      · rw [if_pos isPublic]
        simp only [memberOf, isPublic, if_true] at entered
        exact { projected with v23 := (taken.enter _ _).perm entered.symm }
      · rw [if_neg isPublic]
        simp only [memberOf, isPublic] at entered
        exact { projected with v23 := taken.perm entered.symm }

theorem projected_setPoolSnapshotGeneration (projected : Projected db) {address : Address} {proto : PoolProto}
    {db' : Database} (ran : setPoolSnapshotGeneration address proto generation db = .ok db') : Projected db' := by
  unfold setPoolSnapshotGeneration at ran
  split at ran
  · cases ran
  · cases read : db.pools.get? address with
    | none => rw [read] at ran; cases ran
    | some pool =>
      rw [read] at ran
      dsimp only at ran
      split at ran
      · cases ran
        have entered := @publicMembers_put db { pool with snapshotGeneration := some generation }
        have before := publicMembers_remove (Table.get?_mem read)
        exact { projected with v23 := projected.v23.perm (before.trans entered.symm) }
      · cases ran

end Pools

section Directory

variable {db db' : Database}

variable {rows : List Membership}

theorem snapshotMembers_perm {membership : Table Membership.key} {row : Membership}
    (same : membership.rows.Perm (row :: rows)) :
    (snapshotMembers membership).Perm ((row.pair, ()) :: rows.map fun other => (other.pair, ())) :=
  same.map _

def eventOf (pool : V4Pool) : List ((Address ×ₗ Address) × Nat) :=
  if pool.eventProven then [(pool.pair, pool.createdBlock.getD 0)] else []

variable {v4Pools : Table V4Pool.poolId}

theorem eventMembers_perm {pool : V4Pool} {rows : List V4Pool} (same : v4Pools.rows.Perm (pool :: rows)) :
    (eventMembers v4Pools).Perm
      (eventOf pool ++ (rows.filter V4Pool.eventProven).map fun other => (other.pair, other.createdBlock.getD 0)) := by
  have perm := (same.filter V4Pool.eventProven).map fun other => (other.pair, other.createdBlock.getD 0)
  unfold eventMembers eventOf
  rw [List.filter_cons] at perm
  split
  · rename_i proven
    rw [if_pos proven] at perm
    exact perm
  · rename_i unproven
    rw [if_neg unproven] at perm
    exact perm

theorem eventMembers_put {new : V4Pool} :
    (eventMembers (v4Pools.put new)).Perm (eventOf new ++ eventMembers (v4Pools.remove new.poolId)) :=
  eventMembers_perm Table.put_perm_remove

theorem eventMembers_remove {old : V4Pool} (member : old ∈ v4Pools.rows) :
    (eventMembers v4Pools).Perm (eventOf old ++ eventMembers (v4Pools.remove old.poolId)) :=
  eventMembers_perm (Table.perm_remove member)

theorem projected_insertMembership (projected : Projected db) {row : Membership} (ran : insertMembership row db = .ok db') :
    Projected db' := by
  unfold insertMembership at ran
  split at ran
  · split at ran
    · rename_i fresh
      cases ran
      have perm := snapshotMembers_perm (Table.put_perm_new (Option.isNone_iff_eq_none.mp fresh.1))
      exact { projected with snapshot := (projected.snapshot.enter _ _).perm perm.symm }
    · cases ran
      exact projected
  · cases ran

theorem eventEntered {members : List ((Address ×ₗ Address) × Nat)} {event : RefCounts (Address ×ₗ Address) Nat} {new : V4Pool}
    (counts : Counts members event) (least : Attained members event) :
    Counts (eventOf new ++ members) (v4PoolsSolverEventEnter new event) ∧
      Attained (eventOf new ++ members) (v4PoolsSolverEventEnter new event) := by
  unfold eventOf v4PoolsSolverEventEnter
  split
  · exact ⟨counts.enter _ _, least.enter _ _⟩
  · exact ⟨counts, least⟩

theorem projected_insertV4Pool (projected : Projected db) {new : V4Pool} (ran : insertV4Pool new db = .ok db') : Projected db' := by
  unfold insertV4Pool v4PoolIsNew at ran
  split at ran
  · rename_i fresh
    have perm := eventMembers_perm (Table.put_perm_new (Option.isNone_iff_eq_none.mp fresh))
    obtain ⟨counts, least⟩ := @eventEntered _ _ new projected.event projected.eventLeast
    have stored : Projected { db with
        v4Pools := db.v4Pools.put new
        solverV4AdjacencyEvent := v4PoolsSolverEventEnter new db.solverV4AdjacencyEvent } :=
      { projected with event := counts.perm perm.symm, eventLeast := least.perm perm.symm }
    unfold v4PoolsSnapshotMembershipInsert at ran
    split at ran
    · cases ran
      exact stored
    · exact projected_insertMembership stored ran
  · cases ran
    exact projected

theorem projected_setV4EventIdentity (projected : Projected db) {poolId : Digest} {keyFeePpm createdBlock : Nat}
    (ran : setV4EventIdentity poolId keyFeePpm createdBlock db = .ok db') : Projected db' := by
  unfold setV4EventIdentity at ran
  cases read : db.v4Pools.get? poolId with
  | none => rw [read] at ran; cases ran
  | some old =>
    rw [read] at ran
    dsimp only at ran
    split at ran
    · rename_i agrees
      cases ran
      have removed := eventMembers_remove (Table.get?_mem read)
      have entered := @eventMembers_put db.v4Pools (fillEvent keyFeePpm createdBlock old)
      by_cases proven : old.eventProven
      · -- The guard leaves a proven row as it was.
        have same : fillEvent keyFeePpm createdBlock old = old := by
          simp only [V4Pool.eventProven, Bool.and_eq_true, Option.isSome_iff_exists] at proven
          obtain ⟨⟨fee, feeSet⟩, block, blockSet⟩ := proven
          unfold fillEvent
          rw [feeSet, blockSet, Option.getD_some, Option.getD_some, ← feeSet, ← blockSet]
        rw [same] at entered ⊢
        have perm := removed.trans entered.symm
        rw [if_pos proven]
        exact { projected with event := projected.event.perm perm, eventLeast := projected.eventLeast.perm perm }
      · rw [if_neg proven]
        unfold eventOf at removed
        rw [if_neg proven, List.nil_append] at removed
        obtain ⟨counts, least⟩ := eventEntered (projected.event.perm removed) (projected.eventLeast.perm removed)
        exact { projected with event := counts.perm entered.symm, eventLeast := least.perm entered.symm }
    · cases ran

theorem projected_deleteMembership (projected : Projected db) {old : Membership} (member : old ∈ db.v4PoolSnapshotMembership.rows)
    (ran : deleteMembership db old = .ok db') : Projected db' := by
  unfold deleteMembership at ran
  split at ran
  · cases ran
  · cases ran
    have counts := projected.snapshot.perm (snapshotMembers_perm (Table.perm_remove member))
    exact { projected with snapshot := counts.leave }

theorem deleteMemberships_ran (ran : rows.foldlM deleteMembership db = .ok db') :
    ∃ adjacency, db' = { db with
      v4PoolSnapshotMembership := rows.foldl (fun table old => table.remove old.key) db.v4PoolSnapshotMembership
      solverV4AdjacencySnapshot := adjacency } := by
  induction rows generalizing db with
  | nil =>
    cases ran
    exact ⟨_, rfl⟩
  | cons row rest ih =>
    rw [List.foldlM_cons] at ran
    obtain ⟨middle, one, later⟩ := Fallible.bind_ok ran
    obtain ⟨adjacency, rfl⟩ := ih later
    unfold deleteMembership at one
    split at one
    · cases one
    · cases one
      exact ⟨adjacency, rfl⟩

theorem projected_deleteMemberships (projected : Projected db)
    (apart : rows.Pairwise fun first second => first.key ≠ second.key)
    (inside : ∀ row ∈ rows, row ∈ db.v4PoolSnapshotMembership.rows) (ran : rows.foldlM deleteMembership db = .ok db') :
    Projected db' := by
  have each := @Fallible.foldlM_invariant String Database Membership deleteMembership
    (fun db rest => Projected db ∧ rest.Pairwise (fun first second => first.key ≠ second.key) ∧
      ∀ row ∈ rest, row ∈ db.v4PoolSnapshotMembership.rows)
  refine (each ?_ ⟨projected, apart, inside⟩ ran).1
  rintro s row rest s' ⟨before, apart, inside⟩ one
  obtain ⟨own, later⟩ := List.forall_mem_cons.mp inside
  obtain ⟨ahead, apart⟩ := List.pairwise_cons.mp apart
  refine ⟨projected_deleteMembership before own one, apart, fun other member => ?_⟩
  unfold deleteMembership at one
  split at one
  · cases one
  · cases one
    exact Table.mem_remove.mpr ⟨later other member, (ahead other member).symm⟩

theorem deleteV4Pool_ran {old : V4Pool} (ran : deleteV4Pool db old = .ok db') :
    ∃ middle, (db.v4PoolSnapshotMembership.rows.filter fun row => row.poolId = old.poolId).foldlM deleteMembership db = .ok middle ∧
      db' = { middle with v4Pools := middle.v4Pools.remove old.poolId } := by
  obtain ⟨middle, dropped, rest⟩ := Fallible.bind_ok ran
  cases rest
  exact ⟨middle, dropped, rfl⟩

theorem projected_deleteV4Pool (projected : Projected db) {old : V4Pool} (member : old ∈ db.v4Pools.rows)
    (unproven : old.eventProven = false) (ran : deleteV4Pool db old = .ok db') : Projected db' := by
  obtain ⟨middle, dropped, rfl⟩ := deleteV4Pool_ran ran
  have kept := projected_deleteMemberships projected ((Table.rows_apart _).filter _)
    (fun row chosen => List.mem_of_mem_filter chosen) dropped
  obtain ⟨adjacency, rfl⟩ := deleteMemberships_ran dropped
  have perm := eventMembers_remove member
  unfold eventOf at perm
  rw [if_neg (by simp [unproven]), List.nil_append] at perm
  exact { kept with event := projected.event.perm perm, eventLeast := projected.eventLeast.perm perm }

theorem projected_deleteV4Pools (projected : Projected db) {rows : List V4Pool}
    (apart : rows.Pairwise fun first second => first.poolId ≠ second.poolId)
    (inside : ∀ row ∈ rows, row ∈ db.v4Pools.rows) (unproven : ∀ row ∈ rows, row.eventProven = false)
    (ran : rows.foldlM deleteV4Pool db = .ok db') : Projected db' := by
  have each := @Fallible.foldlM_invariant String Database V4Pool deleteV4Pool
    (fun db rest => Projected db ∧ rest.Pairwise (fun first second => first.poolId ≠ second.poolId) ∧
      (∀ row ∈ rest, row ∈ db.v4Pools.rows) ∧ ∀ row ∈ rest, row.eventProven = false)
  refine (each ?_ ⟨projected, apart, inside, unproven⟩ ran).1
  rintro s row rest s' ⟨before, apart, inside, unproven⟩ one
  obtain ⟨own, later⟩ := List.forall_mem_cons.mp inside
  obtain ⟨ahead, apart⟩ := List.pairwise_cons.mp apart
  obtain ⟨ownUnproven, laterUnproven⟩ := List.forall_mem_cons.mp unproven
  refine ⟨projected_deleteV4Pool before own ownUnproven one, apart, fun other member => ?_, laterUnproven⟩
  obtain ⟨middle, dropped, rfl⟩ := deleteV4Pool_ran one
  obtain ⟨adjacency, rfl⟩ := deleteMemberships_ran dropped
  exact Table.mem_remove.mpr ⟨later other member, (ahead other member).symm⟩

theorem eventMembers_labelMembers (generation : Digest) (db : Database) :
    eventMembers (labelMembers generation db) = eventMembers db.v4Pools := by
  unfold eventMembers labelMembers Table.adjust
  dsimp only
  rw [List.filter_map, List.map_map]
  have proven : (V4Pool.eventProven ∘ fun pool : V4Pool =>
      if isMember db generation pool.poolId then { pool with snapshotGeneration := some generation } else pool) =
      V4Pool.eventProven := by
    funext pool
    rw [Function.comp_apply]
    split <;> rfl
  rw [proven]
  refine List.map_congr_left fun pool _ => ?_
  rw [Function.comp_apply]
  split <;> rfl

theorem projected_gc (projected : Projected db) (ran : solverV4AdjacencySnapshotGc generation db = .ok db') :
    Projected db' := by
  unfold solverV4AdjacencySnapshotGc at ran
  have labelled : Projected { db with v4Pools := labelMembers generation db } := by
    have same := eventMembers_labelMembers generation db
    exact { projected with event := same.symm ▸ projected.event, eventLeast := same.symm ▸ projected.eventLeast }
  obtain ⟨middle, dropped, ran⟩ := Fallible.bind_ok ran
  have single := projected_deleteMemberships labelled ((Table.rows_apart _).filter _)
    (fun row chosen => List.mem_of_mem_filter chosen) dropped
  obtain ⟨adjacency, rfl⟩ := deleteMemberships_ran dropped
  obtain ⟨final, deleted, ran⟩ := Fallible.bind_ok ran
  cases ran
  -- The delete of other generations' projection rows finds none: their memberships are gone.
  have swept : (adjacency.keep fun row => decide ((ofLex row.key).1 = generation)) = adjacency := by
    refine @Counts.keep SnapshotPair Unit _ _ _ adjacency single.snapshot (fun pair => decide ((ofLex pair).1 = generation)) fun member inside => ?_
    obtain ⟨row, left, rfl⟩ := List.mem_map.mp inside
    obtain ⟨old, survives⟩ := Table.mem_foldl_remove.mp left
    by_contra other
    have chosen : row ∈ db.v4PoolSnapshotMembership.rows.filter fun row => row.snapshotGeneration ≠ generation :=
      List.mem_filter.mpr ⟨old, decide_eq_true fun same => other (decide_eq_true same)⟩
    exact survives row chosen rfl
  dsimp only at deleted
  rw [swept] at deleted
  have kept := projected_deleteV4Pools single ((Table.rows_apart _).filter _) (fun row chosen => List.mem_of_mem_filter chosen)
    (fun row chosen => by
      have selected := (List.mem_filter.mp chosen).2
      simp only [Bool.and_eq_true, Bool.not_eq_true'] at selected
      exact selected.2) deleted
  exact ⟨kept.v23, kept.snapshot, kept.event, kept.eventLeast⟩

theorem projected_setGenerationKey (projected : Projected db)
    (ran : setGenerationKey generation db = .ok db') : Projected db' := by
  unfold setGenerationKey at ran
  split at ran
  · split at ran
    · have armed : Projected { db with keys := { db.keys with v4SnapshotGeneration := some generation } } :=
        ⟨projected.v23, projected.snapshot, projected.event, projected.eventLeast⟩
      exact projected_gc armed ran
    · cases ran
  · split at ran
    · cases ran
      exact projected
    · cases ran

end Directory

theorem apply_projected {db db' : Database} {op : CatalogOp} (projected : Projected db) (ran : op.apply db = .ok db') :
    Projected db' := by
  cases op with
  | insertPool new =>
    cases ran
    exact projected_insertPool projected new
  | deletePools selects =>
    cases ran
    exact projected_deletePools projected selects
  | updatePoolIdentity address proto token0 token1 => exact projected_updatePoolIdentity projected ran
  | setPoolSnapshotGeneration address proto generation => exact projected_setPoolSnapshotGeneration projected ran
  | insertV4Pool new => exact projected_insertV4Pool projected ran
  | setV4EventIdentity poolId keyFeePpm createdBlock => exact projected_setV4EventIdentity projected ran
  | setV4SnapshotGeneration poolId generation =>
    unfold CatalogOp.apply Catalog.setV4SnapshotGeneration at ran
    dsimp only at ran
    split at ran
    · cases ran
    · exact projected_insertMembership projected ran
  | deleteStaleV4SnapshotCandidates generation =>
    unfold CatalogOp.apply Catalog.deleteStaleV4SnapshotCandidates at ran
    dsimp only at ran
    split at ran
    · cases ran
    · cases ran
      exact ⟨projected.v23, projected.snapshot, projected.event, projected.eventLeast⟩
  | setPoolCount count =>
    cases ran
    exact ⟨projected.v23, projected.snapshot, projected.event, projected.eventLeast⟩
  | setGeneration generation => exact projected_setGenerationKey projected ran
  | setComplete =>
    cases ran
    exact ⟨projected.v23, projected.snapshot, projected.event, projected.eventLeast⟩

theorem run_projected (transactions : List (List CatalogOp)) : Projected (Trace.run transact Database.fresh transactions) := by
  have each : ∀ db ops, Projected db → Projected (transact db ops) := fun _ ops before =>
    transact_keeps (fun _ _ _ => apply_projected) before ops
  exact Trace.run_keeps_all each projected_fresh transactions

def publicPools (db : Database) (edge : VenuePair) : List Pool :=
  db.pools.rows.filter fun pool => pool.proto.isPublic && pool.venuePair = edge

def memberships (db : Database) (edge : SnapshotPair) : List Membership :=
  db.v4PoolSnapshotMembership.rows.filter fun row => row.pair = edge

def eventPools (db : Database) (edge : Address ×ₗ Address) : List V4Pool :=
  db.v4Pools.rows.filter fun pool => pool.eventProven && pool.pair = edge

/-- Every projection row is what the identity catalogs say, and no row counts nothing. -/
structure ProjectionsExact (db : Database) : Prop where
  v23Count : ∀ edge, db.solverV23Adjacency.count edge = (publicPools db edge).length
  v23First : ∀ row ∈ db.solverV23Adjacency.rows, ∀ pool ∈ publicPools db row.key, row.mark ≤ pool.catalogSeq.getD 0
  snapshotCount : ∀ edge, db.solverV4AdjacencySnapshot.count edge = (memberships db edge).length
  eventCount : ∀ edge, db.solverV4AdjacencyEvent.count edge = (eventPools db edge).length
  eventLower : ∀ row ∈ db.solverV4AdjacencyEvent.rows, ∀ pool ∈ eventPools db row.key, row.mark ≤ pool.createdBlock.getD 0
  eventAttained : ∀ row ∈ db.solverV4AdjacencyEvent.rows, ∃ pool ∈ eventPools db row.key, pool.createdBlock = some row.mark
  v23Positive : ∀ row ∈ db.solverV23Adjacency.rows, 0 < row.refCount
  snapshotPositive : ∀ row ∈ db.solverV4AdjacencySnapshot.rows, 0 < row.refCount
  eventPositive : ∀ row ∈ db.solverV4AdjacencyEvent.rows, 0 < row.refCount

theorem countP_members {ρ κ μ : Type*} [LinearOrder κ] {rows : List ρ} {selects chosen : ρ → Bool} {keyOf : ρ → κ} {markOf : ρ → μ}
    {edge : κ} (same : ∀ row, chosen row = true ↔ selects row = true ∧ keyOf row = edge) :
    ((rows.filter selects).map fun row => (keyOf row, markOf row)).countP (fun member => member.1 = edge) =
      (rows.filter chosen).length := by
  rw [List.countP_map, List.countP_eq_length_filter, List.filter_filter]
  refine congrArg List.length (List.filter_congr fun row _ => ?_)
  rw [Bool.eq_iff_iff, same row]
  simp [and_comm]

theorem projected_exact {db : Database} (projected : Projected db) : ProjectionsExact db where
  v23Count edge := (projected.v23.counted edge).trans (countP_members fun pool => by simp)
  v23First row member pool chosen := by
    obtain ⟨inside, selected⟩ := List.mem_filter.mp chosen
    simp only [Bool.and_eq_true, decide_eq_true_eq] at selected
    exact projected.v23.below row.key row (Table.get?_of_mem member) _
      (List.mem_map.mpr ⟨pool, List.mem_filter.mpr ⟨inside, selected.1⟩, rfl⟩) selected.2
  snapshotCount edge := by
    rw [projected.snapshot.counted edge]
    unfold snapshotMembers memberships
    rw [List.countP_map, List.countP_eq_length_filter]
    rfl
  eventCount edge := (projected.event.counted edge).trans (countP_members fun pool => by simp)
  eventLower row member pool chosen := by
    obtain ⟨inside, selected⟩ := List.mem_filter.mp chosen
    simp only [Bool.and_eq_true, decide_eq_true_eq] at selected
    exact projected.event.below row.key row (Table.get?_of_mem member) _
      (List.mem_map.mpr ⟨pool, List.mem_filter.mpr ⟨inside, selected.1⟩, rfl⟩) selected.2
  eventAttained row member := by
    obtain ⟨pool, chosen, same⟩ := List.mem_map.mp (projected.eventLeast row.key row (Table.get?_of_mem member))
    obtain ⟨inside, proven⟩ := List.mem_filter.mp chosen
    obtain ⟨edge, block⟩ := Prod.mk.inj same
    refine ⟨pool, List.mem_filter.mpr ⟨inside, by simp [proven, edge]⟩, ?_⟩
    simp only [V4Pool.eventProven, Bool.and_eq_true, Option.isSome_iff_exists] at proven
    obtain ⟨created, known⟩ := proven.2
    rw [known] at block ⊢
    exact congrArg some block
  v23Positive row member := projected.v23.positive row.key row (Table.get?_of_mem member)
  snapshotPositive row member := projected.snapshot.positive row.key row (Table.get?_of_mem member)
  eventPositive row member := projected.event.positive row.key row (Table.get?_of_mem member)

/-- After every run of catalog transactions the projections are what their definition says. -/
theorem projections_exact (transactions : List (List CatalogOp)) :
    ProjectionsExact (Trace.run transact Database.fresh transactions) :=
  projected_exact (run_projected transactions)

variable {db db' : Database}

def Matched (db : Database) : Prop := ∀ row ∈ db.v4PoolSnapshotMembership.rows, membershipValid db row = true

variable {row : Membership}

theorem membershipValid_iff :
    membershipValid db row = true ↔ ∃ pool, db.v4Pools.get? row.poolId = some pool ∧ pool.pair = toLex (row.token0, row.token1) := by
  unfold membershipValid
  cases db.v4Pools.get? row.poolId <;> simp

theorem membershipOf_valid {pool : V4Pool} (member : pool ∈ db.v4Pools.rows) (generation : Digest) :
    membershipValid db (membershipOf generation pool) = true :=
  membershipValid_iff.mpr ⟨pool, Table.get?_of_mem member, rfl⟩

theorem matched_of_pairs (matched : Matched db) (rows : ∀ row ∈ db'.v4PoolSnapshotMembership.rows, row ∈ db.v4PoolSnapshotMembership.rows)
    (pairs : ∀ row ∈ db'.v4PoolSnapshotMembership.rows, ∀ pool, db.v4Pools.get? row.poolId = some pool →
      ∃ other, db'.v4Pools.get? row.poolId = some other ∧ other.pair = pool.pair) : Matched db' := by
  intro row member
  obtain ⟨pool, read, pair⟩ := membershipValid_iff.mp (matched row (rows row member))
  obtain ⟨other, found, same⟩ := pairs row member pool read
  exact membershipValid_iff.mpr ⟨other, found, same.trans pair⟩

theorem matched_insertMembership (matched : Matched db) (ran : insertMembership row db = .ok db') : Matched db' := by
  unfold insertMembership at ran
  split at ran
  · rename_i valid
    split at ran
    · cases ran
      intro other member
      rcases Table.mem_put.mp member with rfl | ⟨old, _⟩
      · exact valid
      · exact matched other old
    · cases ran
      exact matched
  · cases ran

theorem matched_insertV4Pool (matched : Matched db) {new : V4Pool} (ran : insertV4Pool new db = .ok db') : Matched db' := by
  unfold insertV4Pool v4PoolIsNew at ran
  split at ran
  · rename_i fresh
    have stored : Matched { db with
        v4Pools := db.v4Pools.put new
        solverV4AdjacencyEvent := v4PoolsSolverEventEnter new db.solverV4AdjacencyEvent } := by
      refine matched_of_pairs matched (fun _ member => member) fun row _ pool read => ⟨pool, ?_, rfl⟩
      have apart : row.poolId ≠ new.poolId := fun same => by
        rw [same, Option.isNone_iff_eq_none.mp fresh] at read
        cases read
      exact (Table.get?_put_other apart).trans read
    unfold v4PoolsSnapshotMembershipInsert at ran
    split at ran
    · cases ran
      exact stored
    · exact matched_insertMembership stored ran
  · cases ran
    exact matched

theorem matched_setV4EventIdentity (matched : Matched db) {poolId : Digest} {keyFeePpm createdBlock : Nat}
    (ran : setV4EventIdentity poolId keyFeePpm createdBlock db = .ok db') : Matched db' := by
  unfold setV4EventIdentity at ran
  cases read : db.v4Pools.get? poolId with
  | none => rw [read] at ran; cases ran
  | some old =>
    rw [read] at ran
    dsimp only at ran
    split at ran
    · cases ran
      refine matched_of_pairs matched (fun _ member => member) fun row _ pool found => ?_
      by_cases here : row.poolId = old.poolId
      · rw [here, Table.get?_key read, read] at found
        cases found
        rw [here]
        exact ⟨fillEvent keyFeePpm createdBlock old, Table.get?_put_same db.v4Pools (fillEvent keyFeePpm createdBlock old), rfl⟩
      · have other : row.poolId ≠ (fillEvent keyFeePpm createdBlock old).poolId := here
        exact ⟨pool, (Table.get?_put_other other).trans found, rfl⟩
    · cases ran

theorem matched_deleteMemberships (matched : Matched db) {rows : List Membership} (ran : rows.foldlM deleteMembership db = .ok db') :
    Matched db' := by
  obtain ⟨adjacency, rfl⟩ := deleteMemberships_ran ran
  exact matched_of_pairs matched (fun _ member => (Table.mem_foldl_remove.mp member).1) fun _ _ pool read => ⟨pool, read, rfl⟩

theorem deleteV4Pool_memberships {old : V4Pool} (ran : deleteV4Pool db old = .ok db') :
    row ∈ db'.v4PoolSnapshotMembership.rows ↔ row ∈ db.v4PoolSnapshotMembership.rows ∧ row.poolId ≠ old.poolId := by
  obtain ⟨middle, dropped, rfl⟩ := deleteV4Pool_ran ran
  obtain ⟨adjacency, rfl⟩ := deleteMemberships_ran dropped
  rw [Table.mem_foldl_remove]
  refine and_congr_right fun inside => ⟨fun survives same => ?_, fun apart other chosen same => apart ?_⟩
  · exact survives row (List.mem_filter.mpr ⟨inside, decide_eq_true same⟩) rfl
  · obtain ⟨_, own⟩ := List.mem_filter.mp chosen
    have keys : row.poolId = other.poolId := congrArg (fun key : Digest ×ₗ Digest => (ofLex key).2) same
    exact keys.trans (of_decide_eq_true own)

theorem deleteV4Pool_pools {old : V4Pool} (ran : deleteV4Pool db old = .ok db') : db'.v4Pools = db.v4Pools.remove old.poolId := by
  obtain ⟨middle, dropped, rfl⟩ := deleteV4Pool_ran ran
  obtain ⟨adjacency, rfl⟩ := deleteMemberships_ran dropped
  rfl

theorem matched_deleteV4Pool (matched : Matched db) {old : V4Pool} (ran : deleteV4Pool db old = .ok db') : Matched db' := by
  refine matched_of_pairs matched (fun _ member => ((deleteV4Pool_memberships ran).mp member).1) fun row member pool read =>
    ⟨pool, ?_, rfl⟩
  rw [deleteV4Pool_pools ran, Table.get?_remove_other ((deleteV4Pool_memberships ran).mp member).2, read]

variable {generation : Digest}

theorem pair_labelMembers {poolId : Digest} {pool : V4Pool} (read : db.v4Pools.get? poolId = some pool) :
    ∃ other, (labelMembers generation db).get? poolId = some other ∧ other.pair = pool.pair := by
  unfold labelMembers
  rw [Table.get?_adjust, read]
  refine ⟨_, rfl, ?_⟩
  dsimp only
  split <;> rfl

theorem matched_gc (matched : Matched db) (ran : solverV4AdjacencySnapshotGc generation db = .ok db') :
    Matched db' := by
  unfold solverV4AdjacencySnapshotGc at ran
  have labelled : Matched { db with v4Pools := labelMembers generation db } :=
    matched_of_pairs matched (fun _ member => member) fun _ _ _ read => pair_labelMembers read
  obtain ⟨middle, dropped, ran⟩ := Fallible.bind_ok ran
  have kept : Matched middle := matched_deleteMemberships labelled dropped
  obtain ⟨final, deleted, ran⟩ := Fallible.bind_ok ran
  cases ran
  have each : ∀ s old s', Matched s → deleteV4Pool s old = .ok s' → Matched s' := fun _ _ _ before one =>
    matched_deleteV4Pool before one
  have swept : Matched final := Fallible.foldlM_keeps each (by exact kept) deleted
  exact swept

theorem isMember_iff {generation poolId : Digest} :
    isMember db generation poolId = true ↔
      ∃ row ∈ db.v4PoolSnapshotMembership.rows, row.snapshotGeneration = generation ∧ row.poolId = poolId := by
  unfold isMember
  rw [Option.isSome_iff_exists]
  constructor
  · rintro ⟨row, read⟩
    have key := Table.get?_key read
    exact ⟨row, Table.get?_mem read, congrArg (fun key : Digest ×ₗ Digest => (ofLex key).1) key,
      congrArg (fun key : Digest ×ₗ Digest => (ofLex key).2) key⟩
  · rintro ⟨row, member, rfl, rfl⟩
    exact ⟨row, Table.get?_of_mem member⟩

theorem deleteMemberships_others :
    row ∈ ((db.v4PoolSnapshotMembership.rows.filter fun row => row.snapshotGeneration ≠ generation).foldl
        (fun table old => table.remove old.key) db.v4PoolSnapshotMembership).rows ↔
      row ∈ db.v4PoolSnapshotMembership.rows ∧ row.snapshotGeneration = generation := by
  rw [Table.mem_foldl_remove]
  refine and_congr_right fun inside => ⟨fun survives => ?_, fun own old chosen same => ?_⟩
  · by_contra other
    exact survives row (List.mem_filter.mpr ⟨inside, decide_eq_true other⟩) rfl
  · have apart := of_decide_eq_true (List.mem_filter.mp chosen).2
    have keys : row.snapshotGeneration = old.snapshotGeneration := congrArg (fun key : Digest ×ₗ Digest => (ofLex key).1) same
    exact apart (keys.symm.trans own)

theorem deleteV4Pools_ran {rows : List V4Pool} (strangers : ∀ old ∈ rows, ∀ row ∈ db.v4PoolSnapshotMembership.rows, row.poolId ≠ old.poolId)
    (ran : rows.foldlM deleteV4Pool db = .ok db') :
    db'.v4PoolSnapshotMembership = db.v4PoolSnapshotMembership ∧ db'.keys = db.keys ∧
      db'.v4Pools = rows.foldl (fun table old => table.remove old.poolId) db.v4Pools := by
  induction rows generalizing db with
  | nil =>
    cases ran
    exact ⟨rfl, rfl, rfl⟩
  | cons old rest ih =>
    rw [List.foldlM_cons] at ran
    obtain ⟨middle, one, later⟩ := Fallible.bind_ok ran
    obtain ⟨own, others⟩ := List.forall_mem_cons.mp strangers
    have membership : middle.v4PoolSnapshotMembership = db.v4PoolSnapshotMembership :=
      Table.ext_mem fun row => (deleteV4Pool_memberships one).trans (and_iff_left_of_imp (own row))
    have keys : middle.keys = db.keys := by
      obtain ⟨_, dropped, rfl⟩ := deleteV4Pool_ran one
      obtain ⟨adjacency, rfl⟩ := deleteMemberships_ran dropped
      rfl
    obtain ⟨sameMembership, sameKeys, pools⟩ := ih (by rw [membership]; exact others) later
    exact ⟨sameMembership.trans membership, sameKeys.trans keys, by rw [pools, deleteV4Pool_pools one]; rfl⟩

structure Collected (generation : Digest) (db db' : Database) : Prop where
  keys : db'.keys = { db.keys with v4SnapshotPublishGeneration := none }
  memberships : db'.v4PoolSnapshotMembership = db.v4PoolSnapshotMembership.keep fun row => row.snapshotGeneration = generation
  pools : ∀ pool, pool ∈ db'.v4Pools.rows ↔
    pool ∈ (labelMembers generation db).rows ∧ (isMember db generation pool.poolId = true ∨ pool.eventProven = true)

theorem gc_collected (ran : solverV4AdjacencySnapshotGc generation db = .ok db') : Collected generation db db' := by
  unfold solverV4AdjacencySnapshotGc at ran
  obtain ⟨middle, dropped, ran⟩ := Fallible.bind_ok ran
  obtain ⟨adjacency, rfl⟩ := deleteMemberships_ran dropped
  obtain ⟨final, deleted, ran⟩ := Fallible.bind_ok ran
  cases ran
  have kept : (db.v4PoolSnapshotMembership.rows.filter fun row => row.snapshotGeneration ≠ generation).foldl
      (fun table old => table.remove old.key) db.v4PoolSnapshotMembership =
      db.v4PoolSnapshotMembership.keep fun row => row.snapshotGeneration = generation :=
    Table.ext_mem fun row => by rw [deleteMemberships_others, Table.mem_keep, decide_eq_true_eq]
  dsimp only at deleted
  rw [kept] at deleted
  have member : ∀ poolId, isMember { db with v4PoolSnapshotMembership := db.v4PoolSnapshotMembership.keep fun row => row.snapshotGeneration = generation }
      generation poolId = isMember db generation poolId := by
    intro poolId
    rw [Bool.eq_iff_iff, isMember_iff, isMember_iff]
    simp only [Table.mem_keep, decide_eq_true_eq]
    grind
  obtain ⟨memberships, keys, pools⟩ := deleteV4Pools_ran (fun old chosen row inside same => by
    have selected := (List.mem_filter.mp chosen).2
    have stranger : isMember db generation old.poolId = false := by
      rw [← member old.poolId]
      simp only [Bool.and_eq_true, Bool.not_eq_true'] at selected
      exact selected.1
    obtain ⟨old', own⟩ := Table.mem_keep.mp inside
    have found : isMember db generation old.poolId = true := isMember_iff.mpr ⟨row, old', of_decide_eq_true own, same⟩
    rw [stranger] at found
    cases found) deleted
  refine ⟨by rw [keys], memberships, fun pool => ?_⟩
  dsimp only
  rw [pools, Table.mem_foldl_remove]
  refine and_congr_right fun inside => ⟨fun survives => ?_, fun stays old chosen same => ?_⟩
  · by_contra gone
    rw [not_or, Bool.not_eq_true, Bool.not_eq_true] at gone
    refine survives pool (List.mem_filter.mpr ⟨inside, ?_⟩) rfl
    have stranger := member pool.poolId
    rw [gone.1] at stranger
    rw [Bool.and_eq_true, Bool.not_eq_true', Bool.not_eq_true']
    exact ⟨stranger, gone.2⟩
  · obtain ⟨listed, selected⟩ := List.mem_filter.mp chosen
    obtain rfl := Table.eq_of_key inside listed same
    have stranger := member pool.poolId
    rw [Bool.and_eq_true, Bool.not_eq_true', Bool.not_eq_true'] at selected
    rcases stays with member | proven
    · rw [member] at stranger
      exact absurd (stranger.symm.trans selected.1) (by simp)
    · rw [selected.2] at proven
      cases proven

theorem apply_matched {op : CatalogOp} (matched : Matched db) (ran : op.apply db = .ok db') : Matched db' := by
  cases op with
  | insertPool new =>
    cases ran
    unfold Catalog.insertPool poolsCatalogFenceInsert poolsSolverAdjacencyInsert
    split
    · split <;> exact matched
    · exact matched
  | deletePools selects =>
    cases ran
    refine List.foldlRecOn (motive := Matched) _ deletePool matched fun _ before _ _ => before
  | updatePoolIdentity address proto token0 token1 =>
    unfold CatalogOp.apply Catalog.updatePoolIdentity at ran
    dsimp only at ran
    split at ran
    · cases ran
      exact matched
    · split at ran <;> cases ran
      exact matched
  | setPoolSnapshotGeneration address proto generation =>
    unfold CatalogOp.apply Catalog.setPoolSnapshotGeneration at ran
    dsimp only at ran
    split at ran
    · cases ran
    · split at ran
      · cases ran
      · split at ran <;> cases ran
        exact matched
  | insertV4Pool new => exact matched_insertV4Pool matched ran
  | setV4EventIdentity poolId keyFeePpm createdBlock => exact matched_setV4EventIdentity matched ran
  | setV4SnapshotGeneration poolId generation =>
    unfold CatalogOp.apply Catalog.setV4SnapshotGeneration at ran
    dsimp only at ran
    split at ran
    · cases ran
    · exact matched_insertMembership matched ran
  | deleteStaleV4SnapshotCandidates generation =>
    unfold CatalogOp.apply Catalog.deleteStaleV4SnapshotCandidates at ran
    dsimp only at ran
    split at ran <;> cases ran
    exact matched
  | setPoolCount count =>
    cases ran
    exact matched
  | setGeneration generation =>
    unfold CatalogOp.apply setGenerationKey at ran
    dsimp only at ran
    split at ran
    · split at ran
      · have armed : Matched { db with keys := { db.keys with v4SnapshotGeneration := some generation } } := matched
        exact matched_gc armed ran
      · cases ran
    · split at ran <;> cases ran
      exact matched
  | setComplete =>
    cases ran
    exact matched

theorem run_matched (transactions : List (List CatalogOp)) : Matched (Trace.run transact Database.fresh transactions) := by
  have each : ∀ db ops, Matched db → Matched (transact db ops) := fun _ ops before =>
    transact_keeps (fun _ _ _ => apply_matched) before ops
  exact Trace.run_keeps_all each (fun _ member => by cases member) transactions

end LpTerminal.Catalog
