import LpTerminal.Catalog.Projections

/-!
What the catalog can lose: a factory ordinal of Pancake V2 goes only with an advance of its generation,
and one ordinal never has two rows.
-/

namespace LpTerminal.Catalog

variable {db db' : Database}

def Holds (db : Database) (ordinal : Nat) : Prop :=
  ∃ pool ∈ db.pools.rows, pool.proto = .pancakev2 ∧ pool.pairIndex = some ordinal

/-- `idx_pools_v2_pair_index`, as a fact about the rows. -/
def UniqueSlots (pools : Table Pool.address) : Prop :=
  ∀ first ∈ pools.rows, ∀ second ∈ pools.rows, first.proto.isV2 = true → second.proto = first.proto →
    second.pairIndex = first.pairIndex → first.pairIndex ≠ none → second = first

structure Evolves (db db' : Database) : Prop where
  advances : db.clock.pancakeV2Generation ≤ db'.clock.pancakeV2Generation
  kept : db'.clock.pancakeV2Generation = db.clock.pancakeV2Generation → ∀ ordinal, Holds db ordinal → Holds db' ordinal
  unique : UniqueSlots db.pools → UniqueSlots db'.pools

theorem Evolves.refl (db : Database) : Evolves db db := ⟨le_refl _, fun _ _ held => held, id⟩

theorem Evolves.trans {middle : Database} (first : Evolves db middle) (second : Evolves middle db') : Evolves db db' where
  advances := first.advances.trans second.advances
  kept same ordinal held := by
    have early := first.advances
    have late := second.advances
    exact second.kept (by omega) ordinal (first.kept (by omega) ordinal held)
  unique before := second.unique (first.unique before)

def SamePools (db db' : Database) : Prop := db'.pools = db.pools ∧ db'.clock = db.clock

theorem SamePools.evolves (same : SamePools db db') : Evolves db db' where
  advances := by rw [same.2]
  kept _ ordinal held := by
    unfold Holds
    rw [same.1]
    exact held
  unique := by rw [same.1]; exact id

theorem slotTaken_false {pools : Table Pool.address} {new : Pool} (free : slotTaken pools new = false) {pool : Pool}
    (member : pool ∈ pools.rows) (elsewhere : pool.address ≠ new.address) (v2 : new.proto.isV2 = true) (proto : pool.proto = new.proto)
    (known : new.pairIndex ≠ none) : pool.pairIndex ≠ new.pairIndex := by
  intro same
  have taken : slotTaken pools new = true := by
    unfold slotTaken
    rw [Bool.and_eq_true, Bool.and_eq_true, List.any_eq_true]
    exact ⟨⟨v2, Option.isSome_iff_ne_none.mpr known⟩, pool, member, by simp [proto, same, elsewhere]⟩
  rw [free] at taken
  cases taken

theorem unique_put {pools : Table Pool.address} {new : Pool} (unique : UniqueSlots pools) (free : slotTaken pools new = false) :
    UniqueSlots (pools.put new) := by
  intro first inFirst second inSecond v2 proto index known
  rcases Table.mem_put.mp inFirst with rfl | ⟨oldFirst, awayFirst⟩
  · rcases Table.mem_put.mp inSecond with rfl | ⟨oldSecond, awaySecond⟩
    · rfl
    · exact absurd index (slotTaken_false free oldSecond awaySecond v2 proto known)
  · rcases Table.mem_put.mp inSecond with rfl | ⟨oldSecond, awaySecond⟩
    · exact absurd index.symm (slotTaken_false free oldFirst awayFirst (proto ▸ v2) proto.symm (index ▸ known))
    · exact unique first oldFirst second oldSecond v2 proto index known

theorem insertPool_pools (db : Database) (new : Pool) :
    (insertPool new db).clock.pancakeV2Generation = db.clock.pancakeV2Generation ∧
      if poolIsNew new db then ∃ stamp, (insertPool new db).pools = db.pools.put { new with catalogSeq := stamp }
      else insertPool new db = db := by
  unfold insertPool
  by_cases isNew : poolIsNew new db
  · rw [if_pos isNew, if_pos isNew]
    unfold poolsSolverAdjacencyInsert poolsCatalogFenceInsert
    by_cases isPublic : new.proto.isPublic
    · rw [if_pos isPublic, if_pos isPublic]
      exact ⟨rfl, _, fence_pools _⟩
    · rw [if_neg isPublic, if_neg isPublic]
      exact ⟨rfl, none, rfl⟩
  · rw [if_neg isNew, if_neg isNew]
    exact ⟨rfl, rfl⟩

theorem holds_put {new : Pool} {ordinal : Nat} (missing : db.pools.get? new.address = none) (held : Holds db ordinal)
    (stored : db'.pools = db.pools.put new) : Holds db' ordinal := by
  obtain ⟨pool, member, venue, index⟩ := held
  refine ⟨pool, ?_, venue, index⟩
  rw [stored]
  exact Table.mem_put.mpr (Or.inr ⟨member, Table.not_mem_of_get? missing member⟩)

theorem insertPool_evolves (db : Database) (new : Pool) : Evolves db (insertPool new db) := by
  obtain ⟨clock, stored⟩ := insertPool_pools db new
  split at stored
  · rename_i isNew
    obtain ⟨stamp, pools⟩ := stored
    simp only [poolIsNew, Bool.and_eq_true, Option.isNone_iff_eq_none, Bool.not_eq_true'] at isNew
    refine ⟨clock.ge, fun _ ordinal held => @holds_put db _ { new with catalogSeq := stamp } ordinal isNew.1 held pools, fun unique => ?_⟩
    rw [pools]
    exact unique_put unique isNew.2
  · rw [stored]
    exact Evolves.refl db

theorem deletePool_evolves {old : Pool} (member : old ∈ db.pools.rows) : Evolves db (deletePool db old) := by
  have unique : UniqueSlots db.pools → UniqueSlots (db.pools.remove old.address) := fun before first inFirst second inSecond =>
    before first (Table.mem_remove.mp inFirst).1 second (Table.mem_remove.mp inSecond).1
  by_cases venue : old.proto = .pancakev2
  · refine ⟨?_, fun same => ?_, unique⟩
    · simp [deletePool, poolsGenerationAdvance, venue]
    · simp [deletePool, poolsGenerationAdvance, venue] at same
  · refine ⟨?_, fun _ ordinal held => ?_, unique⟩
    · simp [deletePool, poolsGenerationAdvance, venue]
    · obtain ⟨pool, inside, own, index⟩ := held
      refine ⟨pool, Table.mem_remove.mpr ⟨inside, fun same => venue ?_⟩, own, index⟩
      rw [← Table.eq_of_key inside member same]
      exact own

theorem deletePools_evolves (db : Database) (selects : Pool → Bool) : Evolves db (deletePools selects db) :=
  @Table.foldl_take _ _ _ Pool.address _ Database.pools deletePool (Evolves db) (fun _ _ => rfl)
    (fun _ _ member before => before.trans (deletePool_evolves member)) _ ((Table.rows_apart db.pools).filter selects) db
    (fun _ chosen => List.mem_of_mem_filter chosen) (Evolves.refl db)

theorem mem_deletePools {selects : Pool → Bool} {pool : Pool} :
    pool ∈ (deletePools selects db).pools.rows ↔ pool ∈ db.pools.rows ∧ selects pool = false := by
  have pools : ∀ (rows : List Pool) (db : Database), (rows.foldl deletePool db).pools = rows.foldl (fun pools old => pools.remove old.address) db.pools :=
    fun rows db => (List.foldl_hom Database.pools fun _ _ => rfl).symm
  unfold deletePools
  rw [pools, Table.mem_foldl_remove]
  refine and_congr_right fun member => ⟨fun apart => ?_, fun kept old chosen same => ?_⟩
  · by_contra selected
    exact apart pool (List.mem_filter.mpr ⟨member, by simpa using selected⟩) rfl
  · obtain ⟨inside, selected⟩ := List.mem_filter.mp chosen
    obtain rfl := Table.eq_of_key member inside same
    rw [kept] at selected
    cases selected

theorem updatePoolIdentity_evolves {address : Address} {proto : PoolProto} {token0 token1 : Address}
    (ran : updatePoolIdentity address proto token0 token1 db = .ok db') : Evolves db db' := by
  unfold updatePoolIdentity at ran
  cases read : db.pools.get? address with
  | none =>
    rw [read] at ran
    cases ran
    exact Evolves.refl db
  | some old =>
    rw [read] at ran
    dsimp only at ran
    split at ran
    · cases ran
    · rename_i free
      cases ran
      have unique : UniqueSlots db.pools →
          UniqueSlots (db.pools.put { old with proto := proto, token0 := token0, token1 := token1 }) := fun before =>
        unique_put before ((Bool.not_eq_true _).mp free)
      by_cases venue : old.proto = .pancakev2 ∨ proto = .pancakev2
      · have advance : (decide (old.proto = .pancakev2) || decide (proto = .pancakev2)) = true := by simpa using venue
        refine ⟨?_, fun same => ?_, unique⟩
        · simp [poolsGenerationAdvance, advance]
        · simp [poolsGenerationAdvance, advance] at same
      · have still : (decide (old.proto = .pancakev2) || decide (proto = .pancakev2)) = false := by simpa using venue
        rw [not_or] at venue
        refine ⟨?_, fun _ ordinal held => ?_, unique⟩
        · simp [poolsGenerationAdvance, still]
        · obtain ⟨pool, inside, own, index⟩ := held
          refine ⟨pool, Table.mem_put.mpr (Or.inr ⟨inside, fun same => venue.1 ?_⟩), own, index⟩
          rw [← Table.eq_of_key inside (Table.get?_mem read) same]
          exact own

theorem setPoolSnapshotGeneration_evolves {address : Address} {proto : PoolProto} {generation : Digest}
    (ran : setPoolSnapshotGeneration address proto generation db = .ok db') : Evolves db db' := by
  unfold setPoolSnapshotGeneration at ran
  split at ran
  · cases ran
  rename_i concentrated
  cases read : db.pools.get? address with
  | none => rw [read] at ran; cases ran
  | some pool =>
    rw [read] at ran
    dsimp only at ran
    split at ran
    · rename_i own
      cases ran
      have apart : pool.proto.isV2 = false ∧ pool.proto ≠ .pancakev2 := by
        rw [own]
        cases proto <;> simp_all [PoolProto.isV2]
      refine ⟨le_refl _, fun _ ordinal held => ?_, fun unique => unique_put unique ?_⟩
      · obtain ⟨other, inside, venue, index⟩ := held
        refine ⟨other, Table.mem_put.mpr (Or.inr ⟨inside, fun same => apart.2 ?_⟩), venue, index⟩
        rw [← Table.eq_of_key inside (Table.get?_mem read) same]
        exact venue
      · unfold slotTaken
        rw [apart.1, Bool.false_and, Bool.false_and]
    · cases ran

theorem insertMembership_same {row : Membership} (ran : insertMembership row db = .ok db') : SamePools db db' := by
  unfold insertMembership at ran
  split at ran
  · split at ran <;> cases ran <;> exact ⟨rfl, rfl⟩
  · cases ran

theorem insertV4Pool_same {new : V4Pool} (ran : insertV4Pool new db = .ok db') : SamePools db db' := by
  unfold insertV4Pool at ran
  split at ran
  · unfold v4PoolsSnapshotMembershipInsert at ran
    split at ran
    · cases ran
      exact ⟨rfl, rfl⟩
    · obtain ⟨pools, clock⟩ := insertMembership_same ran
      exact ⟨pools, clock⟩
  · cases ran
    exact ⟨rfl, rfl⟩

theorem setV4EventIdentity_same {poolId : Digest} {keyFeePpm createdBlock : Nat}
    (ran : setV4EventIdentity poolId keyFeePpm createdBlock db = .ok db') : SamePools db db' := by
  unfold setV4EventIdentity at ran
  split at ran
  · cases ran
  · split at ran <;> cases ran
    exact ⟨rfl, rfl⟩

theorem deleteV4Pool_same {old : V4Pool} (ran : deleteV4Pool db old = .ok db') : SamePools db db' := by
  obtain ⟨middle, dropped, rfl⟩ := deleteV4Pool_ran ran
  obtain ⟨adjacency, rfl⟩ := deleteMemberships_ran dropped
  exact ⟨rfl, rfl⟩

theorem gc_same {generation : Digest} (ran : solverV4AdjacencySnapshotGc generation db = .ok db') : SamePools db db' := by
  unfold solverV4AdjacencySnapshotGc at ran
  obtain ⟨middle, dropped, ran⟩ := Fallible.bind_ok ran
  obtain ⟨adjacency, rfl⟩ := deleteMemberships_ran dropped
  obtain ⟨final, deleted, ran⟩ := Fallible.bind_ok ran
  cases ran
  have each : ∀ s old s', SamePools db s → deleteV4Pool s old = .ok s' → SamePools db s' := fun s old s' before one => by
    obtain ⟨pools, clock⟩ := deleteV4Pool_same one
    exact ⟨pools.trans before.1, clock.trans before.2⟩
  have swept : SamePools db final := Fallible.foldlM_keeps each (by exact ⟨rfl, rfl⟩) deleted
  exact swept

def CatalogOp.ofPools : CatalogOp → Bool
  | insertPool _ => true
  | deletePools _ => true
  | updatePoolIdentity _ _ _ _ => true
  | setPoolSnapshotGeneration _ _ _ => true
  | _ => false

theorem apply_same {op : CatalogOp} (aside : op.ofPools = false) (ran : op.apply db = .ok db') : SamePools db db' := by
  cases op with
  | insertPool new => cases aside
  | deletePools selects => cases aside
  | updatePoolIdentity address proto token0 token1 => cases aside
  | setPoolSnapshotGeneration address proto generation => cases aside
  | insertV4Pool new => exact insertV4Pool_same ran
  | setV4EventIdentity poolId keyFeePpm createdBlock => exact setV4EventIdentity_same ran
  | setV4SnapshotGeneration poolId generation =>
    unfold CatalogOp.apply Catalog.setV4SnapshotGeneration at ran
    dsimp only at ran
    split at ran
    · cases ran
    · exact insertMembership_same ran
  | deleteStaleV4SnapshotCandidates generation =>
    unfold CatalogOp.apply Catalog.deleteStaleV4SnapshotCandidates at ran
    dsimp only at ran
    split at ran <;> cases ran
    exact ⟨rfl, rfl⟩
  | setPoolCount count =>
    cases ran
    exact ⟨rfl, rfl⟩
  | setGeneration generation =>
    unfold CatalogOp.apply setGenerationKey at ran
    dsimp only at ran
    split at ran
    · split at ran
      · have collected := gc_same ran
        exact ⟨collected.1, collected.2⟩
      · cases ran
    · split at ran <;> cases ran
      exact ⟨rfl, rfl⟩
  | setComplete =>
    cases ran
    exact ⟨rfl, rfl⟩

theorem apply_evolves {op : CatalogOp} (ran : op.apply db = .ok db') : Evolves db db' := by
  cases op with
  | insertPool new =>
    cases ran
    exact insertPool_evolves db new
  | deletePools selects =>
    cases ran
    exact deletePools_evolves db selects
  | updatePoolIdentity address proto token0 token1 => exact updatePoolIdentity_evolves ran
  | setPoolSnapshotGeneration address proto generation => exact setPoolSnapshotGeneration_evolves ran
  | _ => exact (apply_same rfl ran).evolves

theorem transact_evolves (db : Database) (ops : List CatalogOp) : Evolves db (transact db ops) :=
  transact_keeps (fun _ _ _ before ran => before.trans (apply_evolves ran)) (Evolves.refl db) ops

theorem transactions_evolve (db : Database) (transactions : List (List CatalogOp)) : Evolves db (transactions.foldl transact db) := by
  have each : ∀ s ops, Evolves db s → Evolves db (transact s ops) := fun s ops before => before.trans (transact_evolves s ops)
  exact Trace.run_keeps_all each (Evolves.refl db) transactions

end LpTerminal.Catalog
