import LpTerminal.Catalog.Rows
import LpTerminal.Lib.Fallible
import LpTerminal.Lib.Trace

/-!
The writes of the catalog with the triggers they fire. `Except` carries the text of a
`RAISE(ABORT, …)` or of the error the store throws; a transaction then rolls back.
-/

namespace LpTerminal.Catalog

section Pools

def poolsCatalogFenceInsert (new : Pool) (db : Database) : Database :=
  if new.proto.isPublic then
    { db with
      clock := { db.clock with nextSeq := db.clock.nextSeq + 1 }
      pools := db.pools.adjust
        (fun pool => if pool.address = new.address then { pool with catalogSeq := some (db.clock.nextSeq + 1) } else pool)
        (fun pool => by split <;> rfl) }
  else db

def poolsSolverAdjacencyInsert (new : Pool) (db : Database) : Database :=
  if new.proto.isPublic then
    { db with
      solverV23Adjacency := db.solverV23Adjacency.enter new.venuePair
        (((db.pools.get? new.address).bind Pool.catalogSeq).getD (db.clock.nextSeq + 1)) }
  else db

/-- `idx_pools_v2_pair_index`: one row for each ordinal of a V2 venue. -/
def slotTaken (pools : Table Pool.address) (new : Pool) : Bool :=
  new.proto.isV2 && new.pairIndex.isSome &&
    pools.rows.any fun pool => pool.proto = new.proto && pool.pairIndex = new.pairIndex && pool.address ≠ new.address

/-- Whether `INSERT OR IGNORE` stores the row. -/
def poolIsNew (new : Pool) (db : Database) : Bool := (db.pools.get? new.address).isNone && !slotTaken db.pools new

def insertPool (new : Pool) (db : Database) : Database :=
  if poolIsNew new db then
    poolsSolverAdjacencyInsert new
      (poolsCatalogFenceInsert new { db with pools := db.pools.put { new with catalogSeq := none } })
  else db

def poolsGenerationAdvance (isPublic pancakeV2 : Bool) (clock : CatalogClock) : CatalogClock :=
  { clock with
    generation := if isPublic then clock.generation + 1 else clock.generation
    pancakeV2Generation := if pancakeV2 then clock.pancakeV2Generation + 1 else clock.pancakeV2Generation }

/-- One row of a `DELETE FROM pools`. -/
def deletePool (db : Database) (old : Pool) : Database :=
  { db with
    pools := db.pools.remove old.address
    clock := poolsGenerationAdvance old.proto.isPublic (old.proto = .pancakev2) db.clock
    solverV23Adjacency :=
      if old.proto.isPublic then db.solverV23Adjacency.leave old.venuePair else db.solverV23Adjacency }

def deletePools (selects : Pool → Bool) (db : Database) : Database :=
  (db.pools.rows.filter selects).foldl deletePool db

/-- `DELETE … WHERE proto = ? AND (snapshot_generation IS NULL OR snapshot_generation <> ?)`. -/
def deletePoolsOutsideSnapshotGeneration (proto : PoolProto) (generation : Digest) (db : Database) : Database :=
  deletePools (fun pool => pool.proto = proto && pool.snapshotGeneration ≠ some generation) db

def deletePoolSnapshotGeneration (proto : PoolProto) (generation : Digest) (db : Database) : Database :=
  deletePools (fun pool => pool.proto = proto && pool.snapshotGeneration = some generation) db

def poolsSolverAdjacencyIdentityUpdate (old new : Pool) (adjacency : RefCounts VenuePair Nat) : RefCounts VenuePair Nat :=
  if new.proto.isPublic then (adjacency.leave old.venuePair).enter new.venuePair (new.catalogSeq.getD 0)
  else adjacency.leave old.venuePair

def updatePoolIdentity (address : Address) (proto : PoolProto) (token0 token1 : Address) (db : Database) :
    Except String Database :=
  match db.pools.get? address with
  | none => .ok db
  | some old =>
    if slotTaken db.pools { old with proto := proto } then .error "UNIQUE constraint failed: pools.proto, pools.pair_index"
    else
      let new := { old with proto := proto, token0 := token0, token1 := token1 }
      .ok { db with
        pools := db.pools.put new
        clock := poolsGenerationAdvance (old.proto.isPublic || new.proto.isPublic)
          (old.proto = .pancakev2 || new.proto = .pancakev2) db.clock
        solverV23Adjacency := poolsSolverAdjacencyIdentityUpdate old new db.solverV23Adjacency }

def setPoolSnapshotGeneration (address : Address) (proto : PoolProto) (generation : Digest) (db : Database) :
    Except String Database :=
  if proto ≠ .univ3 ∧ proto ≠ .pancakev3 then .error "snapshot-generation marking is CL-only"
  else
    match db.pools.get? address with
    | none => .error s!"cannot mark missing {proto.text} pool snapshot generation"
    | some pool =>
      if pool.proto = proto then .ok { db with pools := db.pools.put { pool with snapshotGeneration := some generation } }
      else .error s!"cannot mark missing {proto.text} pool snapshot generation"

end Pools

section Directory

def membershipOf (generation : Digest) (pool : V4Pool) : Membership :=
  { snapshotGeneration := generation, poolId := pool.poolId,
    token0 := (ofLex pool.pair).1, token1 := (ofLex pool.pair).2 }

def membershipValid (db : Database) (row : Membership) : Bool :=
  match db.v4Pools.get? row.poolId with
  | some pool => pool.pair = toLex (row.token0, row.token1)
  | none => false

/-- `INSERT OR IGNORE` of one membership, after its validation. -/
def insertMembership (row : Membership) (db : Database) : Except String Database :=
  if membershipValid db row then
    if (db.v4PoolSnapshotMembership.get? row.key).isNone ∧ row.token0 < row.token1 then
      .ok { db with
        v4PoolSnapshotMembership := db.v4PoolSnapshotMembership.put row
        solverV4AdjacencySnapshot := db.solverV4AdjacencySnapshot.enter row.pair () }
    else .ok db
  else .error "v4 snapshot membership conflicts with PoolKey identity"

def v4PoolsSnapshotMembershipInsert (new : V4Pool) (db : Database) : Except String Database :=
  match new.snapshotGeneration with
  | none => .ok db
  | some generation => insertMembership (membershipOf generation new) db

def v4PoolsSolverEventEnter (new : V4Pool) (event : RefCounts (Address ×ₗ Address) Nat) : RefCounts (Address ×ₗ Address) Nat :=
  if new.eventProven then event.enter new.pair (new.createdBlock.getD 0) else event

def v4PoolIsNew (new : V4Pool) (db : Database) : Bool := (db.v4Pools.get? new.poolId).isNone

def insertV4Pool (new : V4Pool) (db : Database) : Except String Database :=
  if v4PoolIsNew new db then
    v4PoolsSnapshotMembershipInsert new
      { db with
        v4Pools := db.v4Pools.put new
        solverV4AdjacencyEvent := v4PoolsSolverEventEnter new db.solverV4AdjacencyEvent }
  else .ok db

/-- `COALESCE` of both columns with what the event says. -/
def fillEvent (keyFeePpm createdBlock : Nat) (old : V4Pool) : V4Pool :=
  { old with
    keyFeePpm := some (old.keyFeePpm.getD keyFeePpm)
    createdBlock := some (old.createdBlock.getD createdBlock) }

def setV4EventIdentity (poolId : Digest) (keyFeePpm createdBlock : Nat) (db : Database) : Except String Database :=
  match db.v4Pools.get? poolId with
  | none => .error s!"existing v4 pool {poolId} conflicts with Initialize event"
  | some old =>
    if (old.keyFeePpm = none ∨ old.keyFeePpm = some keyFeePpm) ∧
        (old.createdBlock = none ∨ old.createdBlock = some createdBlock) then
      .ok { db with
        v4Pools := db.v4Pools.put (fillEvent keyFeePpm createdBlock old)
        solverV4AdjacencyEvent :=
          if old.eventProven then db.solverV4AdjacencyEvent
          else v4PoolsSolverEventEnter (fillEvent keyFeePpm createdBlock old) db.solverV4AdjacencyEvent }
    else .error s!"existing v4 pool {poolId} conflicts with Initialize event"

def setV4SnapshotGeneration (poolId generation : Digest) (db : Database) : Except String Database :=
  match db.v4Pools.get? poolId with
  | none => .error s!"cannot mark missing v4 pool {poolId} in snapshot generation"
  | some pool => insertMembership (membershipOf generation pool) db

/-- One row of a `DELETE FROM v4_pool_snapshot_membership`. -/
def deleteMembership (db : Database) (old : Membership) : Except String Database :=
  if db.keys.v4SnapshotGeneration = some old.snapshotGeneration then
    .error "cannot delete published v4 snapshot membership"
  else
    .ok { db with
      v4PoolSnapshotMembership := db.v4PoolSnapshotMembership.remove old.key
      solverV4AdjacencySnapshot := db.solverV4AdjacencySnapshot.leave old.pair }

/-- One row of a `DELETE FROM v4_pools`: its memberships go first. -/
def deleteV4Pool (db : Database) (old : V4Pool) : Except String Database := do
  let db ← (db.v4PoolSnapshotMembership.rows.filter fun row => row.poolId = old.poolId).foldlM deleteMembership db
  return { db with v4Pools := db.v4Pools.remove old.poolId }

/-- `v4SnapshotGenerationCount`. -/
def generationCount (generation : Digest) (db : Database) : Nat :=
  db.v4PoolSnapshotMembership.rows.countP fun row => row.snapshotGeneration = generation

def isMember (db : Database) (generation poolId : Digest) : Bool :=
  (db.v4PoolSnapshotMembership.get? (toLex (generation, poolId))).isSome

def deleteStaleV4SnapshotCandidates (generation : Digest) (db : Database) : Except String Database :=
  if generationCount generation db = 0 then .error "cannot publish an empty V4 snapshot generation"
  else .ok { db with keys := { db.keys with v4SnapshotPublishGeneration := some generation } }

/-- `UPDATE v4_pools SET snapshot_generation`: the memberships the clause finds are those its validation asks for. -/
def labelMembers (generation : Digest) (db : Database) : Table V4Pool.poolId :=
  db.v4Pools.adjust
    (fun pool => if isMember db generation pool.poolId then { pool with snapshotGeneration := some generation } else pool)
    (fun pool => by split <;> rfl)

def solverV4AdjacencySnapshotGc (generation : Digest) (db : Database) : Except String Database := do
  let db := { db with v4Pools := labelMembers generation db }
  let db ← (db.v4PoolSnapshotMembership.rows.filter fun row => row.snapshotGeneration ≠ generation).foldlM deleteMembership db
  let db := { db with solverV4AdjacencySnapshot :=
    db.solverV4AdjacencySnapshot.keep fun row => (ofLex row.key).1 = generation }
  let db ← (db.v4Pools.rows.filter fun pool => !isMember db generation pool.poolId && !pool.eventProven).foldlM deleteV4Pool db
  return { db with keys := { db.keys with v4SnapshotPublishGeneration := none } }

/-- `kvSet('v4_snapshot_generation', …)` with the arming, the validation and the garbage collection. -/
def setGenerationKey (generation : Digest) (db : Database) : Except String Database :=
  if db.keys.v4SnapshotPublishGeneration = some generation then
    if db.keys.v4SnapshotPoolCount = some (generationCount generation db) ∧ 0 < generationCount generation db then
      solverV4AdjacencySnapshotGc generation
        { db with keys := { db.keys with v4SnapshotGeneration := some generation } }
    else .error "cannot publish incomplete v4 snapshot membership"
  else if db.keys.v4SnapshotGeneration = some generation then .ok db
  else .error "v4 snapshot generation switch is not armed"

end Directory

inductive CatalogOp
  | insertPool (new : Pool)
  | deletePools (selects : Pool → Bool)
  | updatePoolIdentity (address : Address) (proto : PoolProto) (token0 token1 : Address)
  | setPoolSnapshotGeneration (address : Address) (proto : PoolProto) (generation : Digest)
  | insertV4Pool (new : V4Pool)
  | setV4EventIdentity (poolId : Digest) (keyFeePpm createdBlock : Nat)
  | setV4SnapshotGeneration (poolId generation : Digest)
  | deleteStaleV4SnapshotCandidates (generation : Digest)
  | setPoolCount (count : Nat)
  | setGeneration (generation : Digest)
  | setComplete

def CatalogOp.apply (db : Database) : CatalogOp → Except String Database
  | insertPool new => .ok (Catalog.insertPool new db)
  | deletePools selects => .ok (Catalog.deletePools selects db)
  | updatePoolIdentity address proto token0 token1 => Catalog.updatePoolIdentity address proto token0 token1 db
  | setPoolSnapshotGeneration address proto generation => Catalog.setPoolSnapshotGeneration address proto generation db
  | insertV4Pool new => Catalog.insertV4Pool new db
  | setV4EventIdentity poolId keyFeePpm createdBlock => Catalog.setV4EventIdentity poolId keyFeePpm createdBlock db
  | setV4SnapshotGeneration poolId generation => Catalog.setV4SnapshotGeneration poolId generation db
  | deleteStaleV4SnapshotCandidates generation => Catalog.deleteStaleV4SnapshotCandidates generation db
  | setPoolCount count => .ok { db with keys := { db.keys with v4SnapshotPoolCount := some count } }
  | setGeneration generation => setGenerationKey generation db
  | setComplete => .ok { db with keys := { db.keys with v4SnapshotComplete := true } }

def transact (db : Database) (ops : List CatalogOp) : Database :=
  match ops.foldlM CatalogOp.apply db with
  | .ok db' => db'
  | .error _ => db

theorem transact_keeps {keeps : Database → Prop}
    (each : ∀ db op db', keeps db → CatalogOp.apply db op = .ok db' → keeps db') {db : Database} (before : keeps db)
    (ops : List CatalogOp) : keeps (transact db ops) := by
  unfold transact
  split
  · rename_i ran
    exact Fallible.foldlM_keeps each before ran
  · exact before

end LpTerminal.Catalog
