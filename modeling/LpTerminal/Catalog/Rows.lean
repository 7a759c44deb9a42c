import LpTerminal.Lib.RefCount

/-!
The identity catalogs of the indexer and the solver projections beside them.
-/

namespace LpTerminal.Catalog

abbrev Address := Nat

abbrev Digest := Nat

/-- `Number.isSafeInteger` holds up to this number. -/
def maxSafeInteger : Nat := 2 ^ 53 - 1

inductive PoolProto
  | univ2
  | univ3
  | pancakev2
  | pancakev3
  | up33cl
deriving DecidableEq, Repr

namespace PoolProto

def rank : PoolProto → Nat
  | univ2 => 0
  | univ3 => 1
  | pancakev2 => 2
  | pancakev3 => 3
  | up33cl => 4

theorem rank_injective : Function.Injective rank := by
  intro first second same
  cases first <;> cases second <;> first | rfl | cases same

instance : LinearOrder PoolProto := LinearOrder.lift' rank rank_injective

def text : PoolProto → String
  | univ2 => "univ2"
  | univ3 => "univ3"
  | pancakev2 => "pancakev2"
  | pancakev3 => "pancakev3"
  | up33cl => "up33cl"

/-- `IN ('univ2', 'univ3', 'pancakev2', 'pancakev3')`: UP33 shares the table and not the catalog. -/
def isPublic : PoolProto → Bool
  | up33cl => false
  | _ => true

/-- `IN ('univ2', 'pancakev2')`: the venues whose pools have a factory ordinal. -/
def isV2 : PoolProto → Bool
  | univ2 => true
  | pancakev2 => true
  | _ => false

end PoolProto

structure Pool where
  address : Address
  proto : PoolProto
  token0 : Address
  token1 : Address
  feePpm : Nat
  createdBlock : Option Nat
  pairIndex : Option Nat
  snapshotGeneration : Option Digest
  /-- Null is the baseline before the insertion fence, which readers take for zero. -/
  catalogSeq : Option Nat
deriving DecidableEq

structure V4Pool where
  poolId : Digest
  poolManager : Address
  currency0 : Address
  currency1 : Address
  keyFeePpm : Option Nat
  tickSpacing : Nat
  hooks : Address
  createdBlock : Option Nat
  snapshotGeneration : Option Digest

structure Membership where
  snapshotGeneration : Digest
  poolId : Digest
  token0 : Address
  token1 : Address

def Membership.key (row : Membership) : Digest ×ₗ Digest := toLex (row.snapshotGeneration, row.poolId)

/-- The one row of `v23_catalog_clock`. -/
structure CatalogClock where
  nextSeq : Nat
  generation : Nat
  pancakeV2Generation : Nat

/-- The keys of `kv` that the triggers and the rebuild read. -/
structure SnapshotKeys where
  v4SnapshotGeneration : Option Digest
  v4SnapshotPublishGeneration : Option Digest
  /-- Its only writer stores `String(downloaded)`. -/
  v4SnapshotPoolCount : Option Nat
  v4SnapshotComplete : Bool
  solverAdjacencyProjectionVersion : Option String
  solverV4MembershipSchemaVersion : Option String

/-- `CASE WHEN token0 < token1 THEN …`: a pair without its order. -/
def canonical (token0 token1 : Address) : Address ×ₗ Address :=
  if token0 < token1 then toLex (token0, token1) else toLex (token1, token0)

abbrev VenuePair := PoolProto ×ₗ Address ×ₗ Address

abbrev SnapshotPair := Digest ×ₗ Address ×ₗ Address

def Pool.venuePair (pool : Pool) : VenuePair := toLex (pool.proto, canonical pool.token0 pool.token1)

def V4Pool.pair (pool : V4Pool) : Address ×ₗ Address := canonical pool.currency0 pool.currency1

/-- `key_fee_ppm IS NOT NULL AND created_block IS NOT NULL`: an Initialize event proved the pool. -/
def V4Pool.eventProven (pool : V4Pool) : Bool := pool.keyFeePpm.isSome && pool.createdBlock.isSome

def Membership.pair (row : Membership) : SnapshotPair := toLex (row.snapshotGeneration, toLex (row.token0, row.token1))

structure Database where
  pools : Table Pool.address
  clock : CatalogClock
  /-- The mark is `first_seq`. -/
  solverV23Adjacency : RefCounts VenuePair Nat
  v4Pools : Table V4Pool.poolId
  v4PoolSnapshotMembership : Table Membership.key
  solverV4AdjacencySnapshot : RefCounts SnapshotPair Unit
  /-- The mark is `first_created_block`. -/
  solverV4AdjacencyEvent : RefCounts (Address ×ₗ Address) Nat
  keys : SnapshotKeys

def Database.fresh : Database where
  pools := Table.empty
  clock := ⟨0, 0, 0⟩
  solverV23Adjacency := Table.empty
  v4Pools := Table.empty
  v4PoolSnapshotMembership := Table.empty
  solverV4AdjacencySnapshot := Table.empty
  solverV4AdjacencyEvent := Table.empty
  keys := ⟨none, none, none, false, some "1", some "1"⟩

end LpTerminal.Catalog
