import LpTerminal.Emerging.ChainEvents
import Mathlib.Data.List.Dedup
import Mathlib.Algebra.Group.Nat.Defs

/-!
The event streams of the tracked pools: the filters built from the discovery ledger, the logs they match,
and the batches that store a page with its cursor.
-/

namespace LpTerminal.Emerging

inductive Venue where
  | up33cl
  | univ3
  | univ4
  deriving DecidableEq

/-- `chainId:venue:canonicalId`, as a number. -/
def formatEmergingPoolKey : Venue → ℕ → ℕ
  | .up33cl, id => 3 * id
  | .univ3, id => 3 * id + 1
  | .univ4, id => 3 * id + 2

theorem formatEmergingPoolKey_inj {venue other : Venue} {id id' : ℕ}
    (same : formatEmergingPoolKey venue id = formatEmergingPoolKey other id') : venue = other ∧ id = id' := by
  cases venue <;> cases other <;> simp only [formatEmergingPoolKey] at same <;> first | exact ⟨rfl, by omega⟩ | omega

/-- A row of `emerging_discovery`. -/
structure Discovery where
  venue : Venue
  canonicalId : ℕ
  token0 : Option ℕ
  token1 : Option ℕ
  baseToken : Option ℕ
  admittedRank : Option ℕ
  agedOut : Bool

namespace Discovery

def poolKey (row : Discovery) : ℕ := formatEmergingPoolKey row.venue row.canonicalId

/-- `admitted_rank IS NOT NULL AND state != 'aged_out'`. -/
def tracked (row : Discovery) : Bool := row.admittedRank.isSome && !row.agedOut

def concentrated (row : Discovery) : Bool := decide (row.venue ≠ .univ4)

end Discovery

/-- The addresses and pool ids with their keys, and the base tokens. -/
structure TrackedSet where
  cl : List (ℕ × ℕ)
  v4 : List (ℕ × ℕ)
  tokens : List ℕ

/-- A `Map` keeps the last entry of a key. -/
def keyOf (entries : List (ℕ × ℕ)) (id : ℕ) : Option ℕ := (entries.reverse.find? fun entry => entry.1 = id).map Prod.snd

def buildTrackedSet (ledger : List Discovery) : TrackedSet where
  cl := (ledger.filter fun row => row.tracked && row.concentrated).map fun row => (row.canonicalId, row.poolKey)
  v4 := (ledger.filter fun row => row.tracked && !row.concentrated).map fun row => (row.canonicalId, row.poolKey)
  tokens := ((ledger.filter Discovery.tracked).filterMap Discovery.baseToken).dedup

inductive StreamKind where
  | clPools
  | v4Pools
  | tokens
  deriving DecidableEq

inductive Topic where
  | swap
  | mint
  | burn
  | transfer
  | other
  deriving DecidableEq

/-- A log as the provider returns it; without arguments it does not decode. -/
structure RawLog where
  contract : ℕ
  topic : Topic
  topic1 : Option ℕ
  args : Option Payload
  blockNumber : ℕ
  blockHash : ℕ
  blockTimestamp : Option ℕ
  txHash : ℕ
  txIndex : ℕ
  logIndex : ℕ
  deriving DecidableEq

/-- `buildStreams`: a stream exists where its set has a member. -/
def streamOpen (set : TrackedSet) : StreamKind → Bool
  | .clPools => set.cl ≠ []
  | .v4Pools => set.v4 ≠ []
  | .tokens => set.tokens ≠ []

def matchesStream (poolManager : ℕ) (set : TrackedSet) (log : RawLog) : StreamKind → Bool
  | .clPools => log.contract ∈ set.cl.map Prod.fst && (log.topic = .swap || log.topic = .mint || log.topic = .burn)
  | .v4Pools => log.contract = poolManager && log.topic1.any fun id => id ∈ set.v4.map Prod.fst
  | .tokens => log.contract ∈ set.tokens && log.topic = .transfer

def eventBlockTs (blockTimestamp : Option ℕ) : Option ℕ := blockTimestamp.filter fun n => 0 < n ∧ n ≤ 2 ^ 53 - 1

def Topic.eventKind : Topic → Option EventKind
  | .swap => some .swap
  | .mint => some .mint
  | .burn => some .burn
  | .transfer => some .transfer
  | .other => none

def eventOf (log : RawLog) (kind : EventKind) (poolKey token : Option ℕ) (payload : Payload) : EventInsert where
  txHash := log.txHash
  logIndex := log.logIndex
  blockNumber := log.blockNumber
  blockHash := log.blockHash
  txIndex := log.txIndex
  blockTs := eventBlockTs log.blockTimestamp
  contract := log.contract
  kind := kind
  poolKey := poolKey
  token := token
  payload := payload

def decodeLog (set : TrackedSet) (log : RawLog) : StreamKind → Option EventInsert
  | .v4Pools => (log.topic1.bind (keyOf set.v4)).map fun key => eventOf log .v4raw (some key) none ⟨none, none, none, none, none, none⟩
  | .clPools => do
    let key ← keyOf set.cl log.contract
    let kind ← log.topic.eventKind
    let payload ← log.args
    return eventOf log kind (some key) none payload
  | .tokens => do
    let kind ← log.topic.eventKind
    let payload ← log.args
    return eventOf log kind (keyOf set.cl log.contract) (some log.contract) payload

inductive StreamStatus where
  | active
  | reorgRepair
  | dataGap
  deriving DecidableEq

structure Cursor where
  blockNumber : ℕ
  blockHash : ℕ
  completeThroughTs : Option ℕ
  status : StreamStatus
  deriving DecidableEq

structure ScanStore where
  events : ChainEvents
  cursors : StreamKind → Option Cursor
  /-- `emerging_stream_seed:<stream>`. -/
  seeds : StreamKind → Option ℕ

def setCursor (kind : StreamKind) (cursor : Option Cursor) (store : ScanStore) : ScanStore :=
  { store with cursors := fun other => if other = kind then cursor else store.cursors other }

/-- `MAX(COALESCE(complete_through_ts, excluded…), excluded…)`, which is null where the new time is. -/
def latestTs (old : Option Cursor) (ts : Option ℕ) : Option ℕ := ts.map fun t => max ((old.bind Cursor.completeThroughTs).getD t) t

def commitEmergingScanBatch (kind : StreamKind) (batch : List EventInsert) (blockNumber blockHash : ℕ) (ts : Option ℕ)
    (store : ScanStore) : ScanStore :=
  setCursor kind (some ⟨blockNumber, blockHash, latestTs (store.cursors kind) ts, .active⟩)
    { store with events := batch.foldl insertEvent store.events }

end LpTerminal.Emerging
