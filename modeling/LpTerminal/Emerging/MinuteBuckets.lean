import LpTerminal.Emerging.Streams
import LpTerminal.Lib.Table
import LpTerminal.Lib.Trace

/-!
Dated events to minute buckets: the aggregation pass, and the system of admissions, scan batches, dating
and passes around it, over a chain that never replaces a block. The price columns are floats and left out.
-/

namespace LpTerminal.Emerging

structure MinuteBucket where
  poolKey : ℕ
  minuteTs : ℤ
  complete : Bool
  aggregateVersion : ℕ
  swapCount : ℕ
  amount0 : ℤ
  amount1 : ℤ
  volQuote : Option ℤ
  buyCount : Option ℕ
  sellCount : Option ℕ
  buyVolQuote : Option ℤ
  sellVolQuote : Option ℤ
  deriving DecidableEq

def MinuteBucket.key (bucket : MinuteBucket) : ℕ ×ₗ ℤ := toLex (bucket.poolKey, bucket.minuteTs)

structure AggregateTune where
  poolManager : ℕ
  /-- `CHAIN.addr.STABLE`. -/
  usdg : ℕ
  zeroBackfillHours : ℕ
  aggregateVersion : ℕ

structure AggregateStore extends ScanStore where
  ledger : List Discovery
  /-- The filters of the running scan sweep, built when it began. -/
  set : TrackedSet
  buckets : Table MinuteBucket.key
  /-- `emerging_agg_wm:<pool>`. -/
  watermarks : ℕ → Option ℤ

def AggregateStore.empty : AggregateStore where
  events := []
  cursors _ := none
  seeds _ := none
  ledger := []
  set := ⟨[], [], []⟩
  buckets := Table.empty
  watermarks _ := none

structure MinuteSums where
  buyCount : ℕ
  sellCount : ℕ
  volQuote : ℤ
  buyVol : ℤ
  sellVol : ℤ
  amount0 : ℤ
  amount1 : ℤ

def MinuteSums.zero : MinuteSums := ⟨0, 0, 0, 0, 0, 0, 0⟩

/-- `a1 > 0n ? a1 : -a1`. -/
def size (amount : ℤ) : ℤ := if 0 < amount then amount else -amount

/-- A negative `amount0` is a buy of the base; the volume is the size of `amount1`. -/
def addSwap (s : MinuteSums) (payload : Payload) : MinuteSums :=
  let a0 := payload.amount0.getD 0
  let a1 := payload.amount1.getD 0
  let s := { s with amount0 := s.amount0 + a0, amount1 := s.amount1 + a1 }
  if a0 < 0 then { s with buyCount := s.buyCount + 1, volQuote := s.volQuote + size a1, buyVol := s.buyVol + size a1 }
  else if a1 < 0 then { s with sellCount := s.sellCount + 1, volQuote := s.volQuote + -a1, sellVol := s.sellVol + -a1 }
  else s

/-- The row that `writeMinute` upserts. -/
def minuteBucket (version poolKey : ℕ) (quoted : Bool) (m : ℤ) (swaps : List Payload) (complete : Bool) : MinuteBucket :=
  let s := swaps.foldl addSwap MinuteSums.zero
  { poolKey := poolKey
    minuteTs := m
    complete := complete
    aggregateVersion := version
    swapCount := swaps.length
    amount0 := s.amount0
    amount1 := s.amount1
    volQuote := if quoted then some s.volQuote else none
    buyCount := if swaps = [] then none else some s.buyCount
    sellCount := if swaps = [] then none else some s.sellCount
    buyVolQuote := if quoted then some s.buyVol else none
    sellVolQuote := if quoted then some s.sellVol else none }

def minuteOf (ts : ℕ) : ℤ := (ts / 60 * 60 : ℕ)

section Pass

variable (tune : AggregateTune)

def provenQuoteUsdg (pool : Discovery) : Bool :=
  pool.baseToken.any fun base =>
    pool.token0 = some base && pool.token1 = some tune.usdg || pool.token1 = some base && pool.token0 = some tune.usdg

/-- `streamCompleteQ`: the newest time of any active stream. -/
def streamComplete (store : ScanStore) : Option ℕ :=
  ([StreamKind.clPools, .v4Pools, .tokens].filterMap fun kind =>
    (store.cursors kind).bind fun cursor => if cursor.status = .active then cursor.completeThroughTs else none).max?

/-- `swapsQ`; its order only matters to the price columns. -/
def poolSwaps (events : ChainEvents) (poolKey : ℕ) (first : ℤ) (past : ℕ) : List (ℕ × Payload) :=
  events.filterMap fun row =>
    if row.poolKey = some poolKey ∧ row.canonical ∧ row.kind = .swap then
      (row.blockTs.filter fun ts : ℕ => first ≤ (ts : ℤ) ∧ ts < past).map fun ts => (ts, row.payload)
    else none

structure PassPlan where
  lastMinute : ℤ
  fromMinute : ℤ
  lastClosedMinute : ℤ
  swaps : List (ℕ × Payload)
  zeroFloorMinute : ℤ

def passPlan (pool : Discovery) (completeThrough now : ℕ) (store : AggregateStore) : PassPlan :=
  let lastMinute := (store.watermarks pool.poolKey).getD 0
  let fromMinute := lastMinute - 60
  let lastClosedMinute := minuteOf (min completeThrough now) - 60
  { lastMinute := lastMinute
    fromMinute := fromMinute
    lastClosedMinute := lastClosedMinute
    swaps := poolSwaps store.events pool.poolKey fromMinute (completeThrough + 1)
    zeroFloorMinute :=
      max (minuteOf ((store.seeds .clPools).getD 0)) (max (lastClosedMinute - tune.zeroBackfillHours * 3600) fromMinute) }

namespace PassPlan

variable (plan : PassPlan)

/-- The keys of `byMinute`. -/
def minutes : List ℤ := (plan.swaps.map fun swap => minuteOf swap.1).dedup

def rows (m : ℤ) : List Payload := (plan.swaps.filter fun swap => minuteOf swap.1 = m).map Prod.snd

def zeroStart : ℤ := max plan.zeroFloorMinute ((plan.minutes.max?.map (· + 60)).getD plan.fromMinute)

def zeroMinutes : List ℤ :=
  (List.range ((plan.lastClosedMinute - plan.zeroStart) / 60 + 1).toNat).map fun i : ℕ => plan.zeroStart + 60 * (i : ℤ)

end PassPlan

structure PassState where
  buckets : Table MinuteBucket.key
  watermark : ℤ

/-- `existing`: the completeness that a row in range had before the pass. -/
def existing (plan : PassPlan) (before : Table MinuteBucket.key) (poolKey : ℕ) (m : ℤ) : Option Bool :=
  if plan.fromMinute ≤ m ∧ m ≤ plan.lastClosedMinute then (before.get? (toLex (poolKey, m))).map MinuteBucket.complete else none

def writeMinute (pool : Discovery) (m : ℤ) (swaps : List Payload) (complete : Bool) (s : PassState) : PassState where
  buckets := s.buckets.put (minuteBucket tune.aggregateVersion pool.poolKey (provenQuoteUsdg tune pool) m swaps complete)
  watermark := max s.watermark m

def eventedMinute (pool : Discovery) (plan : PassPlan) (before : Table MinuteBucket.key) (s : PassState) (m : ℤ) : PassState :=
  if plan.lastClosedMinute < m then s
  else
    let complete := decide (plan.zeroFloorMinute ≤ m)
    if existing plan before pool.poolKey m = some complete then s else writeMinute tune pool m (plan.rows m) complete s

def zeroMinute (pool : Discovery) (plan : PassPlan) (before : Table MinuteBucket.key) (s : PassState) (m : ℤ) : PassState :=
  if m ∈ plan.minutes ∨ existing plan before pool.poolKey m = some true then s else writeMinute tune pool m [] true s

def aggregatePoolMinutes (completeThrough now : ℕ) (store : AggregateStore) (pool : Discovery) : AggregateStore :=
  let plan := passPlan tune pool completeThrough now store
  if plan.lastClosedMinute < plan.fromMinute then store
  else
    let evented := plan.minutes.foldl (eventedMinute tune pool plan store.buckets) ⟨store.buckets, plan.lastMinute⟩
    let zeroed := plan.zeroMinutes.foldl (zeroMinute tune pool plan store.buckets) evented
    { store with
      buckets := zeroed.buckets
      watermarks := fun key => if key = pool.poolKey then some zeroed.watermark else store.watermarks key }

/-- `runEmergingAggregateSweep` after its blocks are dated: nothing in it awaits. -/
def runEmergingAggregateSweep (now : ℕ) (store : AggregateStore) : AggregateStore :=
  match streamComplete store.toScanStore with
  | none => store
  | some completeThrough =>
    (store.ledger.filter fun row => row.tracked && row.concentrated).foldl (aggregatePoolMinutes tune completeThrough now) store

end Pass

/-- The logs and block headers of a chain without reorgs; a provider may leave the timestamp of a log out. -/
structure Chain where
  logs : List RawLog
  ts : ℕ → ℕ
  hash : ℕ → ℕ
  ordered : Monotone ts
  distinct : logs.Pairwise fun first second => ¬ (first.txHash = second.txHash ∧ first.logIndex = second.logIndex)
  stamped : ∀ log ∈ logs, log.blockTimestamp = none ∨ log.blockTimestamp = some (ts log.blockNumber)

inductive AggregateStep
  | admissions (ledger : List Discovery)
  | sweepStart
  | seed (kind : StreamKind) (block : ℕ)
  | batch (kind : StreamKind) (hi : ℕ)
  | dataGap (kind : StreamKind)
  | date (block : ℕ)
  | aggregate (now : ℕ)

section System

variable (tune : AggregateTune) (chain : Chain)

/-- `eth_getLogs` with the filters of a stream. -/
def getLogs (set : TrackedSet) (kind : StreamKind) (lo hi : ℕ) : List RawLog :=
  chain.logs.filter fun log => lo ≤ log.blockNumber ∧ log.blockNumber ≤ hi ∧ matchesStream tune.poolManager set log kind

def seedStream (kind : StreamKind) (block : ℕ) (store : ScanStore) : ScanStore :=
  { commitEmergingScanBatch kind [] block (chain.hash block) (some (chain.ts block)) store with
    seeds := fun other => if other = kind then some (chain.ts block) else store.seeds other }

/-- One page of `scanStream`. -/
def scanPage (set : TrackedSet) (kind : StreamKind) (cursor : Cursor) (hi : ℕ) (store : ScanStore) : ScanStore :=
  commitEmergingScanBatch kind ((getLogs tune chain set kind (cursor.blockNumber + 1) hi).filterMap fun log => decodeLog set log kind)
    hi (chain.hash hi) (some (chain.ts hi)) store

def setEmergingStreamStatus (kind : StreamKind) (status : StreamStatus) (store : ScanStore) : ScanStore :=
  setCursor kind ((store.cursors kind).map fun cursor => { cursor with status := status }) store

def aggregateStep (store : AggregateStore) : AggregateStep → AggregateStore
  | .admissions ledger => { store with ledger := ledger }
  | .sweepStart => { store with set := buildTrackedSet store.ledger }
  | .seed kind block =>
    if streamOpen store.set kind ∧ store.cursors kind = none then { store with toScanStore := seedStream chain kind block store.toScanStore }
    else store
  | .batch kind hi =>
    match store.cursors kind with
    | none => store
    | some cursor =>
      if streamOpen store.set kind ∧ cursor.blockNumber < hi then
        { store with toScanStore := scanPage tune chain store.set kind cursor hi store.toScanStore }
      else store
  | .dataGap kind => { store with toScanStore := setEmergingStreamStatus kind .dataGap store.toScanStore }
  | .date block => { store with events := dateBlock store.events block (chain.ts block) }
  | .aggregate now => runEmergingAggregateSweep tune now store

end System

end LpTerminal.Emerging
