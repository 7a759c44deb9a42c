import LpTerminal.Catalog.Evolution
import LpTerminal.Lib.Reads
import Mathlib.Algebra.GroupWithZero.Nat
import Mathlib.Algebra.Order.Ring.Rat

/-!
The address pools as the API shares them with the writers: the catalog with its clock, the exact counter of each protocol, the
market tables that only order and filter pages, and the `/api/pools` request, read by read.
-/

namespace LpTerminal.Api

open Catalog
export Catalog (Address)

structure StateRow where
  address : Address
  proto : Option PoolProto
  tvlUsd : Option ℚ

structure StatsRow where
  address : Address
  proto : Option PoolProto
  vol24hUsd : Option ℚ
  liqUsd : Option ℚ
  updated : Nat

structure DemandRow where
  address : Address
  proto : Option PoolProto
  nextAttempt : Nat
  requestedAt : Nat

structure Market where
  poolState : Table StateRow.address
  poolStats : Table StatsRow.address
  hydrationDemand : Table DemandRow.address
  symbol : Address → Option String
  addedTs : Address → Nat
  unixepoch : Nat

/-- `pools_related_delete`. -/
def Market.forget (market : Market) (address : Address) : Market :=
  { market with
    poolState := market.poolState.remove address
    poolStats := market.poolStats.remove address
    hydrationDemand := market.hydrationDemand.remove address }

structure Store where
  catalog : Database
  /-- `pool_catalog_counts`, where no row is zero. -/
  counts : PoolProto → Nat
  market : Market

/-- `pools_catalog_count_insert`. -/
def countInsert (counts : PoolProto → Nat) (new : PoolProto) : PoolProto → Nat := Function.update counts new (counts new + 1)

/-- `pools_catalog_count_delete`. -/
def countDelete (counts : PoolProto → Nat) (old : PoolProto) : PoolProto → Nat := Function.update counts old (counts old - 1)

/-- `pools_catalog_count_move`. -/
def countMove (counts : PoolProto → Nat) (old new : PoolProto) : PoolProto → Nat :=
  if old = new then counts else countInsert (countDelete counts old) new

/-- The columns that `pools_catalog_generation_update` watches. -/
structure Identity where
  address : Address
  proto : PoolProto
  token0 : Address
  token1 : Address
  feePpm : Nat
  createdBlock : Option Nat
  pairIndex : Option Nat

def Identity.onto (identity : Identity) (pool : Pool) : Pool :=
  { pool with
    address := identity.address
    proto := identity.proto
    token0 := identity.token0
    token1 := identity.token1
    feePpm := identity.feePpm
    createdBlock := identity.createdBlock
    pairIndex := identity.pairIndex }

def FIRST_POOL_CURSOR : Address := 0

def updateIdentity (address : Address) (identity : Identity) (db : Database) : Except String Database :=
  match db.pools.get? address with
  | none => .ok db
  | some old =>
    if identity.address ≠ address ∧ (db.pools.get? identity.address).isSome then .error "UNIQUE constraint failed: pools.address"
    else if slotTaken (db.pools.remove address) (identity.onto old) then
      .error "UNIQUE constraint failed: pools.proto, pools.pair_index"
    else
      .ok { db with
        pools := (db.pools.remove address).put (identity.onto old)
        clock := poolsGenerationAdvance (old.proto.isPublic || identity.proto.isPublic)
          (old.proto = .pancakev2 || identity.proto = .pancakev2) db.clock
        solverV23Adjacency := poolsSolverAdjacencyIdentityUpdate old (identity.onto old) db.solverV23Adjacency }

/-- Every write that the pages can meet. The pools it stores are contracts. -/
inductive PoolWrite
  | insertPool (new : Pool) (sited : new.address ≠ FIRST_POOL_CURSOR)
  | deletePools (selects : Pool → Bool)
  | updateIdentity (address : Address) (identity : Identity) (sited : identity.address ≠ FIRST_POOL_CURSOR)
  | setPoolSnapshotGeneration (address : Address) (proto : PoolProto) (generation : Digest)
  /-- A write of the v4 directory or of the keys. -/
  | aside (op : CatalogOp) (aside : op.ofPools = false)
  /-- Any update of states, market statistics, demands or token symbols, and the passing of time. -/
  | market (now : Market)

def PoolWrite.apply (store : Store) : PoolWrite → Except String Store
  | insertPool new _ => .ok { store with
      catalog := Catalog.insertPool new store.catalog
      counts := if poolIsNew new store.catalog then countInsert store.counts new.proto else store.counts }
  | deletePools selects =>
    let old := store.catalog.pools.rows.filter selects
    .ok { store with
      catalog := Catalog.deletePools selects store.catalog
      counts := (old.map Pool.proto).foldl countDelete store.counts
      market := (old.map Pool.address).foldl Market.forget store.market }
  | updateIdentity address identity _ => do
    let catalog ← Api.updateIdentity address identity store.catalog
    return { store with
      catalog := catalog
      counts := match store.catalog.pools.get? address with
        | none => store.counts
        | some old => countMove store.counts old.proto identity.proto }
  | setPoolSnapshotGeneration address proto generation => do
    let catalog ← Catalog.setPoolSnapshotGeneration address proto generation store.catalog
    return { store with catalog := catalog }
  | aside op _ => do
    let catalog ← op.apply store.catalog
    return { store with catalog := catalog }
  | market now => .ok { store with market := now }

def population (pools : Table Pool.address) (proto : PoolProto) : Nat := pools.rows.countP fun pool => pool.proto = proto

structure Sound (store : Store) : Prop where
  counted : ∀ proto, store.counts proto = population store.catalog.pools proto
  stamped : ∀ pool ∈ store.catalog.pools.rows, pool.catalogSeq.getD 0 ≤ store.catalog.clock.nextSeq
  sited : ∀ pool ∈ store.catalog.pools.rows, pool.address ≠ FIRST_POOL_CURSOR

def stamp (pool : Pool) : Pool := { pool with snapshotGeneration := none }

def within (fence : Nat) (pool : Pool) : Bool := pool.proto.isPublic && pool.catalogSeq.getD 0 ≤ fence

def sight (fence : Nat) (pools : Table Pool.address) (address : Address) : Option Pool :=
  ((pools.get? address).map stamp).filter (within fence)

structure Fences (db db' : Database) : Prop where
  sequence : db.clock.nextSeq ≤ db'.clock.nextSeq
  advances : db.clock.generation ≤ db'.clock.generation
  frozen : db'.clock.generation = db.clock.generation → ∀ fence ≤ db.clock.nextSeq, ∀ address,
    sight fence db'.pools address = sight fence db.pools address

variable {db db' : Database} {store store' : Store} {old new pool : Pool} {fence : Nat} {address : Address}

theorem Fences.refl (db : Database) : Fences db db := ⟨le_refl _, le_refl _, fun _ _ _ _ => rfl⟩

theorem Fences.trans {middle : Database} (first : Fences db middle) (second : Fences middle db') : Fences db db' where
  sequence := first.sequence.trans second.sequence
  advances := first.advances.trans second.advances
  frozen same fence below address := by
    have early := first.advances
    have late := second.advances
    have later := second.frozen (by omega) fence (below.trans first.sequence) address
    exact later.trans (first.frozen (by omega) fence below address)

theorem SamePools.fences (same : SamePools db db') : Fences db db' where
  sequence := by rw [same.2]
  advances := by rw [same.2]
  frozen _ fence _ address := by rw [same.1]

theorem within_stamp : within fence (stamp pool) = within fence pool := rfl

variable {pools : Table Pool.address}

theorem sight_none (hidden : ∀ found, pools.get? address = some found → within fence found = false) :
    sight fence pools address = none := by
  unfold sight
  cases read : pools.get? address with
  | none => rfl
  | some found => simp [Option.filter, within_stamp, hidden found read]

theorem sight_member (member : pool ∈ pools.rows) (hidden : within fence pool = false) :
    sight fence pools pool.address = none :=
  sight_none fun found read => by
    rw [Table.get?_of_mem member] at read
    cases read
    exact hidden

theorem sight_missing (missing : pools.get? address = none) : sight fence pools address = none :=
  sight_none fun found read => by
    rw [missing] at read
    cases read

theorem sight_put (pool : Pool) :
    sight fence (pools.put pool) address =
      if address = pool.address then (some (stamp pool)).filter (within fence) else sight fence pools address := by
  unfold sight
  split
  · rename_i here
    rw [here, Table.get?_put_same pools pool]
    rfl
  · rename_i elsewhere
    rw [Table.get?_put_other elsewhere]

theorem sight_put_hidden (hidden : within fence pool = false)
    (unseen : sight fence pools pool.address = none) : sight fence (pools.put pool) address = sight fence pools address := by
  rw [sight_put]
  split
  · rename_i here
    rw [here, unseen]
    simp [Option.filter, within_stamp, hidden]
  · rfl

theorem sight_remove_hidden {gone : Address} (unseen : sight fence pools gone = none) :
    sight fence (pools.remove gone) address = sight fence pools address := by
  by_cases here : address = gone
  · rw [here, unseen]
    exact sight_missing (Table.get?_remove_same pools gone)
  · unfold sight
    rw [Table.get?_remove_other here]

def fencedRow (new : Pool) (db : Database) : Pool :=
  { new with catalogSeq := if new.proto.isPublic then some (db.clock.nextSeq + 1) else none }

theorem insertPool_stored (fresh : poolIsNew new db = true) :
    (insertPool new db).pools = db.pools.put (fencedRow new db) ∧
      (insertPool new db).clock.generation = db.clock.generation ∧
      (insertPool new db).clock.nextSeq = if new.proto.isPublic then db.clock.nextSeq + 1 else db.clock.nextSeq := by
  unfold insertPool poolsSolverAdjacencyInsert poolsCatalogFenceInsert fencedRow
  rw [if_pos fresh]
  by_cases isPublic : new.proto.isPublic
  · repeat rw [if_pos isPublic]
    exact ⟨fence_pools _, rfl, rfl⟩
  · repeat rw [if_neg isPublic]
    exact ⟨rfl, rfl, rfl⟩

theorem fresh_missing (fresh : poolIsNew new db = true) : db.pools.get? new.address = none := by
  simp only [poolIsNew, Bool.and_eq_true, Option.isNone_iff_eq_none] at fresh
  exact fresh.1

theorem insertPool_fences (db : Database) (new : Pool) : Fences db (insertPool new db) := by
  by_cases fresh : poolIsNew new db = true
  · obtain ⟨pools, generation, sequence⟩ := insertPool_stored fresh
    refine ⟨?_, generation.ge, fun _ fence below address => ?_⟩
    · rw [sequence]
      split <;> omega
    · have beyond : within fence (fencedRow new db) = false := by
        unfold within fencedRow
        by_cases isPublic : new.proto.isPublic
        · simp [isPublic]
          omega
        · simp [isPublic]
      have missing : sight fence db.pools new.address = none := sight_missing (fresh_missing fresh)
      rw [pools]
      exact sight_put_hidden beyond missing
  · unfold insertPool
    rw [if_neg fresh]
    exact Fences.refl db

theorem deletePool_fences (member : old ∈ db.pools.rows) : Fences db (deletePool db old) := by
  refine ⟨le_refl _, ?_, fun same fence _ address => ?_⟩
  · simp only [deletePool, poolsGenerationAdvance]
    split <;> omega
  · have hidden : old.proto.isPublic = false := by
      by_contra isPublic
      simp [deletePool, poolsGenerationAdvance, isPublic] at same
    have unseen : sight fence db.pools old.address = none := sight_member member (by simp [within, hidden])
    exact sight_remove_hidden unseen

theorem deletePools_fences (db : Database) (selects : Pool → Bool) : Fences db (deletePools selects db) :=
  @Table.foldl_take _ _ _ Pool.address _ Database.pools deletePool (Fences db) (fun _ _ => rfl)
    (fun _ _ member before => before.trans (deletePool_fences member)) _ ((Table.rows_apart db.pools).filter selects) db
    (fun _ chosen => List.mem_of_mem_filter chosen) (Fences.refl db)

variable {identity : Identity}

theorem updateIdentity_ran (ran : updateIdentity address identity db = .ok db') :
    (db.pools.get? address = none ∧ db' = db) ∨
      ∃ old, db.pools.get? address = some old ∧ (identity.address ≠ address → db.pools.get? identity.address = none) ∧
        db'.pools = (db.pools.remove address).put (identity.onto old) ∧ db'.clock.nextSeq = db.clock.nextSeq ∧
        db'.clock.generation =
          if old.proto.isPublic || identity.proto.isPublic then db.clock.generation + 1 else db.clock.generation := by
  unfold updateIdentity at ran
  cases read : db.pools.get? address with
  | none =>
    rw [read] at ran
    cases ran
    exact Or.inl ⟨rfl, rfl⟩
  | some old =>
    rw [read] at ran
    dsimp only at ran
    split at ran
    · cases ran
    · rename_i free
      split at ran
      · cases ran
      · cases ran
        refine Or.inr ⟨old, rfl, fun moved => ?_, rfl, rfl, rfl⟩
        simpa [moved] using free

theorem updateIdentity_fences (ran : updateIdentity address identity db = .ok db') : Fences db db' := by
  rcases updateIdentity_ran ran with ⟨-, rfl⟩ | ⟨old, read, free, pools, sequence, generation⟩
  · exact Fences.refl db'
  · by_cases touched : (old.proto.isPublic || identity.proto.isPublic) = true
    · rw [if_pos touched] at generation
      exact ⟨sequence.ge, by omega, fun same => by omega⟩
    · rw [if_neg touched] at generation
      simp only [Bool.or_eq_true, not_or, Bool.not_eq_true] at touched
      refine ⟨sequence.ge, generation.ge, fun _ fence _ other => ?_⟩
      -- Neither the row that left nor the row that came is public.
      have left : sight fence db.pools address = none := sight_none fun found stored => by
        rw [read] at stored
        cases stored
        simp [within, touched.1]
      have came : within fence (identity.onto old) = false := by simp [within, Identity.onto, touched.2]
      have place : sight fence (db.pools.remove address) identity.address = none := by
        rw [sight_remove_hidden left]
        by_cases moved : identity.address = address
        · rw [moved, left]
        · exact sight_missing (free moved)
      rw [pools, sight_put_hidden came place, sight_remove_hidden left]

variable {generation : Digest} {proto : PoolProto}

theorem setPoolSnapshotGeneration_ran
    (ran : setPoolSnapshotGeneration address proto generation db = .ok db') :
    ∃ old ∈ db.pools.rows, db'.pools = db.pools.put { old with snapshotGeneration := some generation } ∧ db'.clock = db.clock := by
  unfold setPoolSnapshotGeneration at ran
  split at ran
  · cases ran
  cases read : db.pools.get? address with
  | none => rw [read] at ran; cases ran
  | some old =>
    rw [read] at ran
    dsimp only at ran
    split at ran <;> cases ran
    exact ⟨old, Table.get?_mem read, rfl, rfl⟩

theorem setPoolSnapshotGeneration_fences
    (ran : setPoolSnapshotGeneration address proto generation db = .ok db') : Fences db db' := by
  obtain ⟨old, member, pools, clock⟩ := setPoolSnapshotGeneration_ran ran
  refine ⟨by rw [clock], by rw [clock], fun _ fence _ other => ?_⟩
  rw [pools, sight_put]
  split
  · rename_i here
    subst here
    unfold sight
    rw [Table.get?_of_mem member]
    rfl
  · rfl

variable {write : PoolWrite}

theorem PoolWrite.fences (ran : write.apply store = .ok store') : Fences store.catalog store'.catalog := by
  cases write with
  | insertPool new sited =>
    cases ran
    exact insertPool_fences _ new
  | deletePools selects =>
    cases ran
    exact deletePools_fences _ selects
  | updateIdentity address identity sited =>
    obtain ⟨catalog, stored, done⟩ := Fallible.bind_ok ran
    cases done
    exact updateIdentity_fences stored
  | setPoolSnapshotGeneration address proto generation =>
    obtain ⟨catalog, stored, done⟩ := Fallible.bind_ok ran
    cases done
    exact setPoolSnapshotGeneration_fences stored
  | aside op aside =>
    obtain ⟨catalog, stored, done⟩ := Fallible.bind_ok ran
    cases done
    exact SamePools.fences (apply_same aside stored)
  | market market =>
    cases ran
    exact Fences.refl _

theorem population_put_new (missing : pools.get? new.address = none) (proto : PoolProto) :
    population (pools.put new) proto = population pools proto + if new.proto = proto then 1 else 0 := by
  unfold population
  rw [(Table.put_perm_new missing).countP_eq, List.countP_cons]
  simp

theorem population_remove (member : old ∈ pools.rows) (proto : PoolProto) :
    population pools proto = population (pools.remove old.address) proto + if old.proto = proto then 1 else 0 := by
  unfold population
  rw [(Table.perm_remove member).countP_eq, List.countP_cons]
  simp

theorem foldl_countDelete (gone : List PoolProto) (counts : PoolProto → Nat) (proto : PoolProto) :
    gone.foldl countDelete counts proto = counts proto - gone.count proto := by
  induction gone generalizing counts with
  | nil => rfl
  | cons first rest ih =>
    rw [List.foldl_cons, ih, List.count_cons]
    unfold countDelete
    by_cases same : first = proto
    · subst same
      simp
      omega
    · simp [same, Function.update_of_ne (Ne.symm same)]

theorem population_deletePools (selects : Pool → Bool) (proto : PoolProto) :
    population (deletePools selects db).pools proto =
      population db.pools proto - ((db.pools.rows.filter selects).map Pool.proto).count proto := by
  have kept : (deletePools selects db).pools = db.pools.keep fun pool => !selects pool :=
    Table.ext_mem fun pool => by rw [mem_deletePools, Table.mem_keep, Bool.not_eq_true']
  have total := List.countP_eq_countP_filter_add db.pools.rows (fun pool => decide (pool.proto = proto)) selects
  have gone : ((db.pools.rows.filter selects).map Pool.proto).count proto =
      (db.pools.rows.filter selects).countP fun pool => decide (pool.proto = proto) := by
    rw [List.count, List.countP_map]
    exact List.countP_congr fun pool _ => by simp
  rw [kept, gone]
  unfold population Table.keep
  dsimp only
  omega

theorem insertPool_sound (sound : Sound store) (sited : new.address ≠ FIRST_POOL_CURSOR) :
    Sound { store with
      catalog := insertPool new store.catalog
      counts := if poolIsNew new store.catalog then countInsert store.counts new.proto else store.counts } := by
  by_cases fresh : poolIsNew new store.catalog = true
  · obtain ⟨pools, -, sequence⟩ := insertPool_stored fresh
    have later := (insertPool_fences store.catalog new).sequence
    rw [if_pos fresh]
    refine ⟨fun proto => ?_, fun pool member => ?_, fun pool member => ?_⟩ <;> dsimp only at *
    · have missing : store.catalog.pools.get? (fencedRow new store.catalog).address = none := fresh_missing fresh
      rw [pools, population_put_new missing, ← sound.counted proto]
      unfold countInsert
      by_cases same : new.proto = proto
      · subst same
        simp [fencedRow]
      · simp [fencedRow, same, Function.update_of_ne (Ne.symm same)]
    · rw [pools] at member
      rcases Table.mem_put.mp member with rfl | ⟨older, -⟩
      · rw [sequence]
        unfold fencedRow
        split <;> simp
      · exact (sound.stamped pool older).trans later
    · rw [pools] at member
      rcases Table.mem_put.mp member with rfl | ⟨older, -⟩
      · exact sited
      · exact sound.sited pool older
  · have same : insertPool new store.catalog = store.catalog := by
      unfold insertPool
      rw [if_neg fresh]
    rw [same, if_neg fresh]
    exact sound

theorem deletePools_sound (sound : Sound store) (selects : Pool → Bool) (market : Market) :
    Sound { store with
      catalog := deletePools selects store.catalog
      counts := ((store.catalog.pools.rows.filter selects).map Pool.proto).foldl countDelete store.counts
      market := market } := by
  have later := (deletePools_fences store.catalog selects).sequence
  refine ⟨fun proto => ?_, fun pool member => ?_, fun pool member => ?_⟩ <;> dsimp only at *
  · rw [foldl_countDelete, population_deletePools, sound.counted proto]
  · exact (sound.stamped pool (mem_deletePools.mp member).1).trans later
  · exact sound.sited pool (mem_deletePools.mp member).1

theorem updateIdentity_sound (sound : Sound store) (sited : identity.address ≠ FIRST_POOL_CURSOR)
    (ran : updateIdentity address identity store.catalog = .ok db') :
    Sound { store with
      catalog := db'
      counts := match store.catalog.pools.get? address with
        | none => store.counts
        | some old => countMove store.counts old.proto identity.proto } := by
  rcases updateIdentity_ran ran with ⟨missing, rfl⟩ | ⟨old, read, free, pools, sequence, -⟩
  · rw [missing]
    exact sound
  · have own := Table.get?_key read
    have member := Table.get?_mem read
    have place : (store.catalog.pools.remove address).get? (identity.onto old).address = none := by
      rw [show (identity.onto old).address = identity.address from rfl]
      by_cases moved : identity.address = address
      · rw [moved, Table.get?_remove_same]
      · rw [Table.get?_remove_other moved, free moved]
    rw [read]
    refine ⟨fun proto => ?_, fun pool inside => ?_, fun pool inside => ?_⟩ <;> dsimp only at *
    · have before := population_remove member proto
      rw [own, ← sound.counted] at before
      rw [pools, population_put_new place]
      unfold countMove countInsert countDelete
      by_cases stays : old.proto = identity.proto
      · rw [if_pos stays]
        simp only [Identity.onto, ← stays]
        omega
      · rw [if_neg stays]
        by_cases leaves : old.proto = proto
        · subst leaves
          simp only [if_true] at before
          simp [Identity.onto, Ne.symm stays, Function.update_of_ne stays]
          omega
        · by_cases comes : identity.proto = proto
          · subst comes
            simp [leaves] at before
            simp [Identity.onto, Function.update_of_ne (Ne.symm stays), before]
          · simp [leaves] at before
            simp [Identity.onto, comes, Function.update_of_ne (Ne.symm comes), Function.update_of_ne (Ne.symm leaves), before]
    · rw [pools] at inside
      rw [sequence]
      rcases Table.mem_put.mp inside with rfl | ⟨older, -⟩
      · exact sound.stamped old member
      · exact sound.stamped pool (Table.mem_remove.mp older).1
    · rw [pools] at inside
      rcases Table.mem_put.mp inside with rfl | ⟨older, -⟩
      · exact sited
      · exact sound.sited pool (Table.mem_remove.mp older).1

theorem setPoolSnapshotGeneration_sound (sound : Sound store)
    (ran : setPoolSnapshotGeneration address proto generation store.catalog = .ok db') : Sound { store with catalog := db' } := by
  obtain ⟨old, member, pools, clock⟩ := setPoolSnapshotGeneration_ran ran
  refine ⟨fun proto => ?_, fun pool inside => ?_, fun pool inside => ?_⟩ <;> dsimp only at *
  · have before := population_remove member proto
    have after : population (store.catalog.pools.put { old with snapshotGeneration := some generation }) proto =
        population (store.catalog.pools.remove old.address) proto + if old.proto = proto then 1 else 0 := by
      unfold population
      rw [Table.put_perm_remove.countP_eq, List.countP_cons]
      simp
    rw [pools, after, ← before, sound.counted]
  · rw [pools] at inside
    rw [clock]
    rcases Table.mem_put.mp inside with rfl | ⟨older, -⟩
    · exact sound.stamped old member
    · exact sound.stamped pool older
  · rw [pools] at inside
    rcases Table.mem_put.mp inside with rfl | ⟨older, -⟩
    · exact sound.sited old member
    · exact sound.sited pool older

theorem SamePools.sound (same : SamePools store.catalog db') (sound : Sound store) : Sound { store with catalog := db' } := by
  refine ⟨fun proto => ?_, fun pool inside => ?_, fun pool inside => ?_⟩ <;> dsimp only at *
  · rw [same.1]
    exact sound.counted proto
  · rw [same.1] at inside
    rw [same.2]
    exact sound.stamped pool inside
  · rw [same.1] at inside
    exact sound.sited pool inside

theorem PoolWrite.sound (sound : Sound store) (ran : write.apply store = .ok store') : Sound store' := by
  cases write with
  | insertPool new sited =>
    cases ran
    exact insertPool_sound sound sited
  | deletePools selects =>
    cases ran
    exact deletePools_sound sound selects _
  | updateIdentity address identity sited =>
    obtain ⟨catalog, stored, done⟩ := Fallible.bind_ok ran
    cases done
    exact updateIdentity_sound sound sited stored
  | setPoolSnapshotGeneration address proto generation =>
    obtain ⟨catalog, stored, done⟩ := Fallible.bind_ok ran
    cases done
    exact setPoolSnapshotGeneration_sound sound stored
  | aside op aside =>
    obtain ⟨catalog, stored, done⟩ := Fallible.bind_ok ran
    cases done
    exact SamePools.sound (apply_same aside stored) sound
  | market now =>
    cases ran
    exact ⟨sound.counted, sound.stamped, sound.sited⟩

def lostBetween (before after : Store) : Nat :=
  before.catalog.pools.rows.countP fun pool =>
    pool.proto.isPublic && (after.catalog.pools.get? pool.address).map stamp ≠ some (stamp pool)

structure Served where
  store : Store
  sound : Sound store
  /-- How many public pools a write has deleted or changed. No request reads it. -/
  lost : Nat

def Served.apply (served : Served) (write : PoolWrite) : Except String Served :=
  match ran : write.apply served.store with
  | .ok after => .ok ⟨after, write.sound served.sound ran, served.lost + lostBetween served.store after⟩
  | .error e => .error e

def Served.commit (served : Served) (writes : List PoolWrite) : Served :=
  match writes.foldlM Served.apply served with
  | .ok after => after
  | .error _ => served

/-- While the generation stays, no public pool was lost and no fenced reader sees a difference. -/
structure Guarded (served served' : Served) : Prop where
  fences : Fences served.store.catalog served'.store.catalog
  intact : served'.store.catalog.clock.generation = served.store.catalog.clock.generation → served'.lost = served.lost

theorem lostBetween_none (sound : Sound store) (fences : Fences store.catalog store'.catalog)
    (same : store'.catalog.clock.generation = store.catalog.clock.generation) : lostBetween store store' = 0 := by
  refine List.countP_eq_zero.mpr fun pool member counted => ?_
  rw [Bool.and_eq_true, decide_eq_true_iff] at counted
  obtain ⟨isPublic, lost⟩ := counted
  have seen := fences.frozen same _ (le_refl _) pool.address
  have inside : within store.catalog.clock.nextSeq (stamp pool) = true := by
    rw [within_stamp]
    simp [within, isPublic, sound.stamped pool member]
  unfold sight at seen
  rw [Table.get?_of_mem member, Option.map_some, Option.filter_some, if_pos inside, Option.filter_eq_some_iff] at seen
  exact lost seen.1

theorem Served.apply_guarded {served served' : Served} (ran : served.apply write = .ok served') :
    Guarded served served' := by
  unfold Served.apply at ran
  split at ran
  · rename_i after stored
    cases ran
    have fences := write.fences stored
    exact ⟨fences, fun same => by rw [lostBetween_none served.sound fences same, Nat.add_zero]⟩
  · cases ran

theorem Guarded.refl (served : Served) : Guarded served served := ⟨Fences.refl _, fun _ => rfl⟩

theorem Guarded.trans {first second third : Served} (one : Guarded first second) (two : Guarded second third) :
    Guarded first third where
  fences := one.fences.trans two.fences
  intact same := by
    have early := one.fences.advances
    have late := two.fences.advances
    exact (two.intact (by omega)).trans (one.intact (by omega))

theorem Served.commit_guarded (served : Served) (writes : List PoolWrite) : Guarded served (served.commit writes) := by
  unfold Served.commit
  split
  · rename_i after ran
    exact Fallible.foldlM_keeps (fun _ _ _ before one => before.trans (Served.apply_guarded one)) (Guarded.refl served) ran
  · exact Guarded.refl served

inductive Refusal
  | input (text : String)
  | conflict (text : String)

structure Tune where
  indexV2 : Bool
  maxPoolTvlUsd : ℚ
  landingCandidateN : Nat
  marketStatsTtlSeconds : Nat

variable (tune : Tune)

def MAX_PAGE_LIMIT : Nat := 500

def SEARCH_COUNT_CAP : Nat := 10 * MAX_PAGE_LIMIT

/-- `PROTOS`. -/
def publicProtos : List PoolProto := [.univ2, .univ3, .pancakev2, .pancakev3]

def enabledProtos : List PoolProto := publicProtos.filter fun proto => tune.indexV2 || !proto.isV2

inductive PoolSort
  | tvl
  | vol
  | created

/-- A search term after `trim` and `toLowerCase`. -/
inductive Search
  | address (hex : Address)
  | pair (first second : String)
  /-- A pair search with an empty side. -/
  | emptySide
  | symbol (start : String)

/-- The query parameters. A cursor and an address are parsed, and `proto` is split at its commas. -/
structure Params where
  proto : List String
  token0 : Option Address
  token1 : Option Address
  minTvl : Option ℚ
  q : Option Search
  sort : PoolSort
  limit : Option Nat
  after : Option Address
  catalogSeq : Option Nat
  catalogGeneration : Option Nat

structure Filter where
  protocols : List PoolProto
  minTvl : Option ℚ
  pair : Option (Address × Address)
  search : Option Search

def requestedProtocols (params : Params) : Except Refusal (List PoolProto) := do
  let known := params.proto.map fun text => publicProtos.find? fun proto => proto.text = text
  Fallible.demand (∀ proto ∈ known, proto ≠ none) (.input "invalid pool protocol")
  Fallible.demand (∀ proto ∈ known.reduceOption, proto ∈ enabledProtos tune) (.input "pool protocol is disabled")
  return known.reduceOption.dedup

def exactPair (token0 token1 : Option Address) (searches : Bool) : Except Refusal (Option (Address × Address)) :=
  match token0, token1 with
  | none, none => .ok none
  | some token0, some token1 =>
    if searches then .error (.input "exact pair cannot be combined with q")
    else if token1 ≤ token0 then .error (.input "exact pair must use canonical token0 < token1 order")
    else .ok (some (token0, token1))
  | _, _ => .error (.input "exact pair requires both token0 and token1")

/-- What `poolsWhere` reads of the parameters. -/
def filterOf (params : Params) : Except Refusal Filter := do
  let pair ← exactPair params.token0 params.token1 params.q.isSome
  let protocols ← requestedProtocols tune params
  return { protocols := protocols, minTvl := params.minTvl, pair := pair, search := params.q }

def foldCase (text : String) : List Char := text.toList.map Char.toLower

def named (symbols : Address → Option String) (symbol : String) (token : Address) : Bool :=
  (symbols token).any fun own => foldCase own = foldCase symbol

def startsWith (symbols : Address → Option String) (start : String) (token : Address) : Bool :=
  (symbols token).any fun own => (foldCase start).isPrefixOf (foldCase own)

def pairSearchClause (symbols : Address → Option String) (first second : String) (token0 token1 : Address) : Bool :=
  (named symbols first token0 && named symbols second token1) || (named symbols first token1 && named symbols second token0)

def searchClause (symbols : Address → Option String) (pool : Pool) : Search → Bool
  | .address hex => pool.address = hex || pool.token0 = hex || pool.token1 = hex
  | .pair first second => pairSearchClause symbols first second pool.token0 pool.token1
  | .emptySide => false
  | .symbol start => startsWith symbols start pool.token0 || startsWith symbols start pool.token1

def protoClause (protocols : List PoolProto) (pool : Pool) : Bool :=
  if protocols ≠ [] then pool.proto ∈ protocols
  else if tune.indexV2 then pool.proto ≠ .up33cl
  else pool.proto ∈ enabledProtos tune

def tvlUsd (market : Market) (address : Address) : Option ℚ := (market.poolState.get? address).bind StateRow.tvlUsd

def poolsWhere (filter : Filter) (market : Market) (pool : Pool) : Bool :=
  protoClause tune filter.protocols pool &&
    (filter.minTvl.all fun least => (tvlUsd market pool.address).any fun tvl => least ≤ tvl) &&
    (filter.pair.all fun pair => pool.token0 = pair.1 && pool.token1 = pair.2) &&
    filter.search.all (searchClause market.symbol pool)

/-- `COALESCE(p.catalog_seq, 0) <= ?`. -/
def fencedRows (filter : Filter) (fence : Nat) (store : Store) : List Pool :=
  store.catalog.pools.rows.filter fun pool => poolsWhere tune filter store.market pool && pool.catalogSeq.getD 0 ≤ fence

structure MatchCount where
  n : Nat
  capped : Bool

def exactly (n : Nat) : MatchCount := ⟨n, false⟩

def addressCatalogTotals (store : Store) (proto : PoolProto) : Nat :=
  if proto ∈ enabledProtos tune then store.counts proto else 0

def fastV23Count (filter : Filter) (totals : PoolProto → Nat) (store : Store) : Option MatchCount :=
  if filter.search.isSome || filter.pair.isSome then none
  else
    match filter.minTvl with
    | some least =>
      let protocols := if filter.protocols ≠ [] then filter.protocols else enabledProtos tune
      some (exactly (store.market.poolState.rows.countP fun row =>
        row.tvlUsd.any (fun tvl => least ≤ tvl) && row.proto.any fun proto => proto ∈ protocols))
    | none =>
      some (exactly (if filter.protocols ≠ [] then (filter.protocols.map totals).sum else (publicProtos.map totals).sum))

def boundedCount {ρ : Type} (matching : List ρ) (cap : Nat) : MatchCount :=
  if cap < (matching.take (cap + 1)).length then ⟨cap, true⟩ else exactly (matching.take (cap + 1)).length

def countPools (filter : Filter) (totals : PoolProto → Nat) (fence : Nat) (store : Store) : MatchCount :=
  (fastV23Count tune filter totals store).getD (boundedCount (fencedRows tune filter fence store) SEARCH_COUNT_CAP)

/-- The columns of an `ORDER BY`, the first one deciding. -/
def lexically {ρ : Type} (columns : List (ρ → ρ → Ordering)) (first second : ρ) : Bool :=
  (columns.foldr (fun (column : ρ → ρ → Ordering) later => (column first second).then later) Ordering.eq).isLE

def ascending {ρ κ : Type} [Ord κ] (key : ρ → κ) (first second : ρ) : Ordering := compare (key first) (key second)

def descending {ρ κ : Type} [Ord κ] (key : ρ → κ) (first second : ρ) : Ordering := compare (key second) (key first)

/-- `ORDER BY … LIMIT`. -/
def top {ρ : Type} (columns : List (ρ → ρ → Ordering)) (limit : Nat) (rows : List ρ) : List ρ :=
  (rows.mergeSort (lexically columns)).take limit

theorem top_length {ρ : Type} (columns : List (ρ → ρ → Ordering)) (limit : Nat) (rows : List ρ) : (top columns limit rows).length ≤ limit := by
  unfold top
  rw [List.length_take]
  omega

theorem top_subperm {ρ : Type} (columns : List (ρ → ρ → Ordering)) (limit : Nat) (rows : List ρ) : (top columns limit rows).Subperm rows :=
  (List.take_sublist limit _).subperm.trans (List.mergeSort_perm rows _).subperm

def statsFresh (market : Market) (updated : Nat) : Bool := market.unixepoch ≤ updated + tune.marketStatsTtlSeconds

def vol24hUsd (market : Market) (address : Address) : Option ℚ := (market.poolStats.get? address).bind StatsRow.vol24hUsd

def statsUpdated (market : Market) (address : Address) : Nat := ((market.poolStats.get? address).map StatsRow.updated).getD 0

/-- `ORDER`: a corrupt figure sinks to the bottom. -/
def ORDER (market : Market) : PoolSort → List (Pool → Pool → Ordering)
  | .tvl =>
    [ascending fun pool => (tvlUsd market pool.address).all fun tvl => tune.maxPoolTvlUsd ≤ tvl,
     descending fun pool => tvlUsd market pool.address,
     ascending Pool.address]
  | .vol =>
    [ascending fun pool =>
      (vol24hUsd market pool.address).isNone || !statsFresh tune market (statsUpdated market pool.address),
     descending fun pool => vol24hUsd market pool.address,
     ascending Pool.address]
  | .created =>
    [ascending fun pool => pool.createdBlock.isNone,
     descending Pool.createdBlock,
     descending Pool.pairIndex,
     ascending Pool.address]

def sourcesOf (store : Store) (perSource : Nat) (scope : Option PoolProto) : List (List Address) :=
  let market := store.market
  let ofProto : Option PoolProto → Bool := fun proto => scope.all fun asked => proto = some asked
  let pools := store.catalog.pools.rows.filter fun pool => ofProto (some pool.proto)
  let states := market.poolState.rows.filter fun row => ofProto row.proto && row.tvlUsd.any fun tvl => tvl < tune.maxPoolTvlUsd
  let stats := market.poolStats.rows.filter fun row => ofProto row.proto && statsFresh tune market row.updated
  let demands := market.hydrationDemand.rows.filter fun row => ofProto row.proto
  [(top [descending StateRow.tvlUsd] perSource states).map StateRow.address,
   (top [descending StatsRow.vol24hUsd] perSource (stats.filter fun row => row.vol24hUsd.isSome)).map StatsRow.address,
   (top [descending StatsRow.liqUsd] perSource (stats.filter fun row => row.liqUsd.isSome)).map StatsRow.address,
   (top [descending Pool.createdBlock, descending Pool.pairIndex, ascending Pool.address] perSource pools).map Pool.address,
   (top [ascending DemandRow.nextAttempt, descending DemandRow.requestedAt, ascending DemandRow.address] perSource demands).map
     DemandRow.address,
   (top [descending fun pool => market.addedTs pool.address, ascending Pool.address] perSource pools).map Pool.address,
   (top [ascending Pool.address] perSource pools).map Pool.address]

def landingCandidates (protocols : List PoolProto) (requestedLimit : Nat) (store : Store) : List Address :=
  let perSource := max requestedLimit (min 20000 tune.landingCandidateN)
  let scopes : List (Option PoolProto) :=
    if protocols ≠ [] then protocols.map some
    else if tune.indexV2 then [none]
    else (enabledProtos tune).map some
  (scopes.flatMap (sourcesOf tune store perSource)).flatten

structure PoolsPage where
  count : Nat
  countCapped : Bool
  nextCursor : Option Address
  catalogSeq : Nat
  catalogGeneration : Nat
  totals : PoolProto → Nat
  pools : List Pool

def fetchPools (filter : Filter) (sort : PoolSort) (limit fence : Nat) (after : Option Address) (store : Store) : List Pool :=
  match after with
  | some cursor =>
    -- The table is in address order already.
    ((fencedRows tune filter fence store).filter fun pool => cursor < pool.address).take (limit + 1)
  | none =>
    if filter.search.isNone && filter.pair.isNone then
      top (ORDER tune store.market sort) limit
        ((fencedRows tune filter fence store).filter fun pool =>
          pool.address ∈ landingCandidates tune filter.protocols limit store)
    else top (ORDER tune store.market sort) limit (fencedRows tune filter fence store)

def pageOf (after : Option Address) (limit : Nat) (counted : MatchCount) (clock : CatalogClock) (totals : PoolProto → Nat)
    (fetched : List Pool) : PoolsPage :=
  let rows := if after.isSome then fetched.take limit else fetched
  let hasMore := if after.isSome then limit < fetched.length else fetched.length < counted.n
  { count := counted.n
    countCapped := counted.capped
    nextCursor :=
      if hasMore then
        if after.isSome then rows.getLast?.map Pool.address else some FIRST_POOL_CURSOR
      else none
    catalogSeq := clock.nextSeq
    catalogGeneration := clock.generation
    totals := totals
    pools := rows }

def checkFenceParams (params : Params) : Except Refusal Unit := do
  Fallible.demand (params.after ≠ none ∨ (params.catalogSeq = none ∧ params.catalogGeneration = none))
    (.input "v2/v3 landing page cannot carry a catalog fence")
  Fallible.demand (params.after = none ∨ (params.catalogSeq = none ↔ params.catalogGeneration = none))
    (.input "v2/v3 continuation requires both catalog_seq and catalog_generation")

def fenceOf (params : Params) (clock : CatalogClock) : Except Refusal CatalogClock := do
  let seq := params.catalogSeq.getD clock.nextSeq
  let generation := params.catalogGeneration.getD clock.generation
  Fallible.demand (params.catalogSeq = none ∨ seq ≤ maxSafeInteger) (.input "invalid v2/v3 catalog_seq")
  Fallible.demand (seq ≤ clock.nextSeq) (.conflict "v2/v3 catalog fence is no longer available; restart pagination")
  Fallible.demand (generation = clock.generation) (.conflict "v2/v3 catalog generation changed; restart pagination")
  return { clock with nextSeq := seq, generation := generation }

def checkedFilter (params : Params) : Except Refusal Filter := do
  let filter ← filterOf tune params
  checkFenceParams params
  return filter

def pageLimit (params : Params) : Nat := min (max (if params.limit = some 0 then 100 else params.limit.getD 100) 1) MAX_PAGE_LIMIT

def getV23Pools (params : Params) : Reads Served (Except Refusal PoolsPage) :=
  match checkedFilter tune params with
  | .error refusal => .done (.error refusal)
  | .ok filter =>
    let limit := pageLimit params
    .read fun atClock =>
      match fenceOf params atClock.store.catalog.clock with
      | .error refusal => .done (.error refusal)
      | .ok fence =>
        .read fun atTotals => .read fun atCount => .read fun atRows => .read fun atEnd =>
          let totals := addressCatalogTotals tune atTotals.store
          let counted := countPools tune filter totals fence.nextSeq atCount.store
          let fetched := fetchPools tune filter params.sort limit fence.nextSeq params.after atRows.store
          if atEnd.store.catalog.clock.generation ≠ fence.generation then
            .done (.error (.conflict "v2/v3 catalog generation changed; restart pagination"))
          else .done (.ok (pageOf params.after limit counted fence totals fetched))

/-- A filter on immutable columns, with the sort order and the page size that go with it. -/
structure Browse where
  proto : List String
  token0 : Option Address
  token1 : Option Address
  sort : PoolSort
  limit : Option Nat

def Browse.landing (browse : Browse) : Params :=
  { browse with minTvl := none, q := none, after := none, catalogSeq := none, catalogGeneration := none }

def Browse.continuation (browse : Browse) (landing : PoolsPage) (cursor : Address) : Params :=
  { browse with
    minTvl := none
    q := none
    after := some cursor
    catalogSeq := some landing.catalogSeq
    catalogGeneration := some landing.catalogGeneration }

inductive Traversal
  | refused (refusal : Refusal)
  | interrupted (landing : PoolsPage) (refusal : Refusal)
  | unfinished (landing : PoolsPage)
  | complete (landing : PoolsPage) (pages : List PoolsPage)

/-- A client that follows `nextCursor` for at most so many requests. -/
def followCursor (browse : Browse) (landing : PoolsPage) : Nat → List PoolsPage → Option Address → Reads Served Traversal
  | _, pages, none => .done (.complete landing pages)
  | 0, _, some _ => .done (.unfinished landing)
  | requests + 1, pages, some cursor =>
    (getV23Pools tune (browse.continuation landing cursor)).bind fun
      | .error refusal => .done (.interrupted landing refusal)
      | .ok page => followCursor browse landing requests (pages ++ [page]) page.nextCursor

def traverse (browse : Browse) (requests : Nat) : Reads Served Traversal :=
  (getV23Pools tune browse.landing).bind fun
    | .error refusal => .done (.refused refusal)
    | .ok landing => followCursor tune browse landing requests [] landing.nextCursor

end LpTerminal.Api
